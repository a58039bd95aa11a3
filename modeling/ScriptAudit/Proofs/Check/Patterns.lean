import ScriptAudit.Check.Patterns
import ScriptAudit.Proofs.Document.Pattern
import ScriptAudit.Proofs.Document.Sections
import ScriptAudit.Yaml.Standard

/-!
# What is reported about patterns

Patterns that are not closed and patterns without an identifier are looked for twice, among the
patterns of the document and once more on its lines. The second search finds patterns inside of
others as well; what it finds twice on a line is reported once. Main statement: the lines that are
reported can be told from the text (`Check.lines_of_patterns`).

* `Check.ofLine_eq_searches` — one pass over a line finds the closed patterns from left to right,
  and behind them the one that is open at the end.
* `Check.isSome_openAtEnd?_iff`, `Check.occurrences_emptyPattern_iff` — what the lines are searched
  for.
* `Check.linesOf_oncePerLine` — each line once.
-/

namespace ScriptAudit

/-! ## Closed patterns -/

namespace Pattern

/-- Finds a pattern that is closed. -/
def closed (line : Nat) : Recogniser Pattern := fun _ t =>
  match opening? t with
  | none => none
  | some s =>
    let identifier := (t.drop 2).takeWhile (· ≠ '}')
    if '}' ∈ t.drop 2 then
      some (⟨s, identifier, line, problemOf identifier⟩, identifier.length + 3)
    else none

variable {line : Nat} {before : Option Char}

theorem closed_of_not_opening {t : Text} (h : opening? t = none) : closed line before t = none := by
  rw [closed, h]

theorem closed_of_notMem {t : Text} (h : '}' ∉ t) : closed line before t = none := by
  have hdrop : '}' ∉ t.drop 2 := fun hmem => h (List.mem_of_mem_drop hmem)
  unfold closed
  split
  · rfl
  · exact if_neg hdrop

theorem closed_of_opening (s : Substitution) {a : Text} (ha : '}' ∉ a) (rest : Text) :
    closed line before ('{' :: s.mark :: (a ++ '}' :: rest)) =
      some (⟨s, a, line, problemOf a⟩, a.length + 3) := by
  rw [closed, opening?_eq_some.2 ⟨_, rfl⟩]
  simp only [List.drop_succ_cons, List.drop_zero, Text.takeWhile_ne_append_cons ha]
  exact if_pos (by simp)

/-- Nothing is found where nothing opens. -/
theorem collect_closed_append {gap t : Text} (h : ¬ Opens gap)
    (ht : ∀ s : Substitution, t.head? ≠ some s.mark) :
    (closed line).collect 0 before (gap ++ t) =
      (closed line).collect 0 (gap.getLast?.or before) t := by
  refine Recogniser.collect_append _ fun x y hxy hy => closed_of_not_opening ?_
  exact opening?_eq_none_of_not_opens hy (not_opens_suffix h ⟨x, hxy.symm⟩) ht

end Pattern

namespace Check

open Pattern (Opens opening? opening?_eq_some head?_brace_ne_mark not_opens_suffix)

/-! ## The opening at the end of a line -/

/-- What opens in front of a closing brace is not open at the end. -/
theorem openAtEnd?_append_closing (u v : Text) : openAtEnd? (u ++ '}' :: v) = openAtEnd? v := by
  induction u with
  | nil => rfl
  | cons c u ih =>
    have hmem : (u ++ '}' :: v).elem '}' = true := by simp
    rw [List.cons_append, openAtEnd?, hmem]
    split
    · exact ih
    · exact ih

theorem openAtEnd?_append_of_not_opens {u t : Text} (h : ¬ Opens u)
    (ht : ∀ s : Substitution, t.head? ≠ some s.mark) : openAtEnd? (u ++ t) = openAtEnd? t := by
  induction u with
  | nil => rfl
  | cons c u ih =>
    have hnone : opening? (c :: (u ++ t)) = none :=
      Pattern.opening?_eq_none_of_not_opens (List.cons_ne_nil c u) h ht
    rw [List.cons_append, openAtEnd?, hnone]
    exact ih (not_opens_suffix h (List.suffix_cons c u))

theorem openAtEnd?_opening (s : Substitution) {a : Text} (ha : '}' ∉ a) :
    openAtEnd? ('{' :: s.mark :: a) = some (s, a) := by
  have hnone : (s.mark :: a).elem '}' = false := by
    have := Pattern.notMem_opening s ha
    simp_all
  rw [openAtEnd?, opening?_eq_some.2 ⟨a, rfl⟩, hnone]
  rfl

/-- **One pass and two searches.** The patterns of a line are the closed ones, which are found from
left to right without overlap, and behind them the one that is open at the end of the line. -/
theorem ofLine_eq_searches (line : Nat) (t : Text) :
    Pattern.ofLine line t = (Pattern.closed line).occurrences t ++
      ((openAtEnd? t).map fun (s, rest) => ⟨s, rest, line, some .unclosed⟩).toList := by
  have hsame : ∀ before before' t, Pattern.closed line before t = Pattern.closed line before' t :=
    fun _ _ _ => rfl
  have h := Pattern.finds_scan line t
  rw [Pattern.ofLine]
  generalize Pattern.scan line 0 t = ps at h ⊢
  induction h with
  | @nothing t free =>
    have hclosed : (Pattern.closed line).occurrences (t ++ []) = [] := by
      rw [Recogniser.occurrences, Pattern.collect_closed_append free (by simp)]
      rfl
    have hopen : openAtEnd? (t ++ []) = none := openAtEnd?_append_of_not_opens free (by simp)
    rw [List.append_nil] at hclosed hopen
    rw [hclosed, hopen]
    rfl
  | @closed gap a rest ps s free inside next ih =>
    have hdrop : (s.mark :: (a ++ '}' :: rest)).drop (a.length + 3 - 1) = rest := by simp
    have hclosed : (Pattern.closed line).occurrences (gap ++ '{' :: s.mark :: (a ++ '}' :: rest)) =
        ⟨s, a, line, Pattern.problemOf a⟩ :: (Pattern.closed line).occurrences rest := by
      rw [Recogniser.occurrences, Pattern.collect_closed_append free (head?_brace_ne_mark _), Recogniser.collect,
        Pattern.closed_of_opening s inside]
      simp only [Recogniser.collect_eq_occurrences_drop hsame, hdrop]
    have hopen : openAtEnd? (gap ++ '{' :: s.mark :: (a ++ '}' :: rest)) = openAtEnd? rest := by
      have := openAtEnd?_append_closing (gap ++ '{' :: s.mark :: a) rest
      rwa [List.append_assoc] at this
    rw [hclosed, hopen, List.cons_append, ← ih]
  | @unclosed gap a s free inside =>
    have hclosed : (Pattern.closed line).collect 0 (gap.getLast?.or none) ('{' :: s.mark :: a) = [] := by
      refine Recogniser.collect_eq_nil_iff.2 fun x y hxy _ => Pattern.closed_of_notMem fun hmem => ?_
      exact Pattern.notMem_opening s inside (hxy ▸ List.mem_append_right x hmem)
    rw [Recogniser.occurrences, Pattern.collect_closed_append free (head?_brace_ne_mark _), hclosed,
      openAtEnd?_append_of_not_opens free (head?_brace_ne_mark _), openAtEnd?_opening s inside]
    rfl

/-! ## The shapes that lines are searched for -/

/-- Whether a pattern opens in a line and no brace is closed behind the opening. -/
def EndsOpen (t : Text) : Prop :=
  ∃ u, ∃ s : Substitution, ∃ v, t = u ++ '{' :: s.mark :: v ∧ '}' ∉ v

/-- Whether a line holds a pattern with nothing but blanks between the mark and the closing brace. -/
def HoldsEmpty (t : Text) : Prop :=
  ∃ u, ∃ s : Substitution, ∃ blanks v, t = u ++ '{' :: s.mark :: (blanks ++ '}' :: v) ∧
    ∀ c ∈ blanks, isBlank c = true

theorem isSome_openAtEnd?_iff {t : Text} : (openAtEnd? t).isSome = true ↔ EndsOpen t := by
  constructor
  · intro h
    induction t with
    | nil => cases h
    | cons c cs ih =>
      rw [openAtEnd?] at h
      have hlater : EndsOpen cs → EndsOpen (c :: cs) :=
        fun ⟨u, s, v, hcs, hv⟩ => ⟨c :: u, s, v, by rw [hcs]; rfl, hv⟩
      split at h
      · next s hs =>
        split at h
        · exact hlater (ih h)
        · next hclosed =>
          obtain ⟨v, hv⟩ := opening?_eq_some.1 hs
          obtain ⟨-, rfl⟩ := List.cons.inj hv
          exact ⟨[], s, v, hv, fun hmem => hclosed (by simp [hmem])⟩
      · exact hlater (ih h)
  · rintro ⟨u, s, v, rfl, hv⟩
    induction u with
    | nil =>
      rw [List.nil_append, openAtEnd?_opening s hv]
      rfl
    | cons c u ih =>
      rw [List.cons_append, openAtEnd?]
      split
      · split
        · exact ih
        · rfl
      · exact ih

theorem emptyPattern_eq (before : Option Char) (t : Text) :
    emptyPattern before t =
      match Pattern.opening? t with
      | none => none
      | some s =>
        if ((t.drop 2).dropWhile isBlank).head? = some '}' then
          some ('{' :: s.mark :: (t.drop 2).takeWhile isBlank ++ ['}'],
            ((t.drop 2).takeWhile isBlank).length + 3)
        else none := by
  rw [emptyPattern]
  cases Pattern.opening? t with
  | none => rfl
  | some s =>
    rw [← Text.drop_length_takeWhile, List.drop_drop]
    rfl

theorem isSome_emptyPattern_iff {before : Option Char} {t : Text} :
    (emptyPattern before t).isSome = true ↔ ∃ s : Substitution, ∃ blanks v,
      t = '{' :: s.mark :: (blanks ++ '}' :: v) ∧ ∀ c ∈ blanks, isBlank c = true := by
  rw [emptyPattern_eq]
  constructor
  · intro h
    split at h
    · cases h
    · next s hs =>
      split at h
      · next hclosing =>
        obtain ⟨rest, rfl⟩ := opening?_eq_some.1 hs
        obtain ⟨v, hv⟩ := List.head?_eq_some_iff.1 hclosing
        refine ⟨s, rest.takeWhile isBlank, v, ?_, fun c hc => List.mem_takeWhile_imp hc⟩
        have hrest : rest.takeWhile isBlank ++ '}' :: v = rest := by
          rw [← hv]
          exact List.takeWhile_append_dropWhile
        rw [hrest]
      · cases h
  · rintro ⟨s, blanks, v, rfl, hblanks⟩
    have hclosing : (blanks ++ '}' :: v).dropWhile isBlank = '}' :: v :=
      Text.dropWhile_append_of_head? hblanks fun c hc => Option.some.inj hc ▸ by decide
    rw [opening?_eq_some.2 ⟨_, rfl⟩]
    simp only [List.drop_succ_cons, List.drop_zero, hclosing]
    rfl

theorem occurrences_emptyPattern_iff {t : Text} : emptyPattern.occurrences t ≠ [] ↔ HoldsEmpty t := by
  have hplace : ∀ before t, emptyPattern before t ≠ none ↔ ∃ s : Substitution, ∃ blanks v,
      t = '{' :: s.mark :: (blanks ++ '}' :: v) ∧ ∀ c ∈ blanks, isBlank c = true := by
    intro before t
    rw [← Option.isSome_iff_ne_none]
    exact isSome_emptyPattern_iff
  rw [Recogniser.occurrences, ne_eq, Recogniser.collect_eq_nil_iff]
  push Not
  simp only [hplace]
  constructor
  · rintro ⟨u, y, rfl, -, s, blanks, v, rfl, hblanks⟩
    exact ⟨u, s, blanks, v, rfl, hblanks⟩
  · rintro ⟨u, s, blanks, v, rfl, hblanks⟩
    exact ⟨u, _, rfl, List.cons_ne_nil _ _, s, blanks, v, rfl, hblanks⟩

/-! ## Lines of issues -/

/-- The lines of the issues with a code. -/
def linesOf (code : Text) (is : List Issue) : List (Option Nat) :=
  (is.filter (·.code = code)).map (·.line)

section

variable {code : Text} {k : Option Nat}

theorem mem_linesOf {is : List Issue} :
    k ∈ linesOf code is ↔ ∃ i ∈ is, i.code = code ∧ i.line = k := by
  simp [linesOf, and_assoc]

theorem linesOf_cons (code : Text) (i : Issue) (is : List Issue) :
    linesOf code (i :: is) = if i.code = code then i.line :: linesOf code is else linesOf code is := by
  by_cases h : i.code = code
  · simp [linesOf, h]
  · simp [linesOf, h]

theorem linesOf_append (code : Text) (is js : List Issue) :
    linesOf code (is ++ js) = linesOf code is ++ linesOf code js := by
  simp [linesOf]

/-- Of the issues of unclosed and empty patterns each line is kept once, unless it has been seen. -/
theorem linesOf_oncePerLine (hcode : code = "PAT002".toList ∨ code = "PAT003".toList)
    (seen : List (Text × Option Nat)) (is : List Issue) :
    (linesOf code (oncePerLine seen is)).Nodup ∧
      ∀ k, k ∈ linesOf code (oncePerLine seen is) ↔ k ∈ linesOf code is ∧ (code, k) ∉ seen := by
  induction is generalizing seen with
  | nil => exact ⟨List.nodup_nil, by simp [oncePerLine, linesOf]⟩
  | cons i is ih =>
    unfold oncePerLine
    split
    · split
      · next hseen =>
        -- the issue is left out, and its line has been seen
        obtain ⟨hnodup, hmem⟩ := ih seen
        refine ⟨hnodup, fun k => ?_⟩
        rw [hmem, linesOf_cons]
        by_cases hi : i.code = code
        · rw [if_pos hi, List.mem_cons, or_and_right, or_iff_right]
          rintro ⟨rfl, hnot⟩
          exact hnot (by simpa [← hi] using hseen)
        · rw [if_neg hi]
      · next hseen =>
        obtain ⟨hnodup, hmem⟩ := ih ((i.code, i.line) :: seen)
        rw [linesOf_cons, linesOf_cons]
        by_cases hi : i.code = code
        · subst hi
          rw [if_pos rfl, if_pos rfl, List.nodup_cons]
          refine ⟨⟨fun hline => ((hmem _).1 hline).2 List.mem_cons_self, hnodup⟩, fun k => ?_⟩
          simp only [List.mem_cons, hmem, Prod.mk.injEq, true_and, not_or]
          by_cases hk : k = i.line
          · simpa [hk] using hseen
          · simp [hk]
        · rw [if_neg hi, if_neg hi]
          refine ⟨hnodup, fun k => ?_⟩
          simp [hmem, Ne.symm hi]
    · next hother =>
      have hi : i.code ≠ code := by
        rintro rfl
        exact hother (by simpa using hcode)
      rw [linesOf_cons, linesOf_cons, if_neg hi, if_neg hi]
      exact ih seen

theorem linesOf_oncePerLine_of_ne (hcode : code ≠ "PAT002".toList ∧ code ≠ "PAT003".toList)
    (seen : List (Text × Option Nat)) (is : List Issue) :
    linesOf code (oncePerLine seen is) = linesOf code is := by
  induction is generalizing seen with
  | nil => rfl
  | cons i is ih =>
    unfold oncePerLine
    split
    · next hrepeated =>
      have hi : i.code ≠ code := by
        rintro rfl
        rcases (by simpa using hrepeated : i.code = _ ∨ i.code = _) with h | h
        · exact hcode.1 h
        · exact hcode.2 h
      rw [linesOf_cons, if_neg hi]
      split
      · exact ih seen
      · rw [linesOf_cons, if_neg hi]
        exact ih _
    · rw [linesOf_cons, linesOf_cons, ih]

/-! ## The issues of patterns and of lines -/

/-- The code of the issue that tells of a fault. -/
def codeOf : PatternProblem → Text
  | .ill => "PAT001"
  | .unclosed => "PAT002"
  | .empty => "PAT003"

theorem codeOf_injective : Function.Injective codeOf := by
  intro p q h
  cases p <;> cases q <;> first | rfl | exact absurd h (by decide)

theorem formIssue?_code (p : Pattern) :
    (formIssue? p).map (fun i => (i.code, i.line)) = p.problem.map fun q => (codeOf q, some p.line) := by
  rw [formIssue?]
  cases p.problem with
  | none => rfl
  | some q => cases q <;> rfl

/-- The lines of the issues of the patterns with a fault. -/
theorem linesOf_filterMap_formIssue? (q : PatternProblem) (ps : List Pattern) :
    linesOf (codeOf q) (ps.filterMap formIssue?) =
      (ps.filter (·.problem = some q)).map fun p => some p.line := by
  induction ps with
  | nil => rfl
  | cons p ps ih =>
    have hcode := formIssue?_code p
    cases hp : p.problem with
    | none =>
      rw [hp, Option.map_none, Option.map_eq_none_iff] at hcode
      rw [List.filterMap_cons_none hcode, ih, List.filter_cons_of_neg (by simp [hp])]
    | some q' =>
      rw [hp, Option.map_some, Option.map_eq_some_iff] at hcode
      obtain ⟨i, hi, hpair⟩ := hcode
      obtain ⟨hicode, hiline⟩ := Prod.mk.inj hpair
      rw [List.filterMap_cons_some hi, linesOf_cons, hicode, hiline]
      by_cases hq : q' = q
      · rw [if_pos (by rw [hq]), ih, List.filter_cons_of_pos (by simp [hp, hq]), List.map_cons]
      · rw [if_neg fun h => hq (codeOf_injective h), ih, List.filter_cons_of_neg (by simp [hp, hq])]

/-- What is told of a line by an issue of the line alone. -/
def Shows (t : Text) : PatternProblem → Prop
  | .ill => False
  | .unclosed => EndsOpen t
  | .empty => HoldsEmpty t

theorem mem_linesOf_iff_of_forall {p q : PatternProblem} {line : Nat} {is : List Issue}
    (h : ∀ i ∈ is, i.code = codeOf p ∧ i.line = some line) :
    k ∈ linesOf (codeOf q) is ↔ is ≠ [] ∧ p = q ∧ k = some line := by
  rw [mem_linesOf]
  constructor
  · rintro ⟨i, hi, hcode, rfl⟩
    exact ⟨List.ne_nil_of_mem hi, codeOf_injective ((h i hi).1.symm.trans hcode), (h i hi).2⟩
  · rintro ⟨hne, rfl, rfl⟩
    obtain ⟨i, is, rfl⟩ := List.exists_cons_of_ne_nil hne
    exact ⟨i, List.mem_cons_self, h i List.mem_cons_self⟩

theorem mem_linesOf_lineIssues {q : PatternProblem} {line : Nat} {t : Text} :
    k ∈ linesOf (codeOf q) (lineIssues line t) ↔ Shows t q ∧ k = some line := by
  have hopen : ∀ i ∈ ((openAtEnd? t).map fun (s, rest) => unclosedIssue line s rest).toList,
      i.code = codeOf .unclosed ∧ i.line = some line := by
    intro i hi
    obtain ⟨⟨s, rest⟩, -, rfl⟩ := Option.map_eq_some_iff.1 (Option.mem_toList.1 hi)
    exact ⟨rfl, rfl⟩
  have hempty : ∀ i ∈ (emptyPattern.occurrences t).map (emptyIssue line),
      i.code = codeOf .empty ∧ i.line = some line :=
    List.forall_mem_map.2 fun _ _ => ⟨rfl, rfl⟩
  have hopenAt : ((openAtEnd? t).map fun (s, rest) => unclosedIssue line s rest).toList ≠ [] ↔
      EndsOpen t := by
    rw [← isSome_openAtEnd?_iff]
    cases openAtEnd? t <;> simp
  rw [lineIssues, linesOf_append, List.mem_append, mem_linesOf_iff_of_forall hopen,
    mem_linesOf_iff_of_forall hempty, hopenAt, ne_eq, List.map_eq_nil_iff, ← ne_eq,
    occurrences_emptyPattern_iff]
  cases q <;> simp [Shows]

theorem code_of_styleIssue? {p : Pattern} {i : Issue} (h : styleIssue? p = some i) :
    i.code ∈ ["PAT004".toList, "PAT005".toList, "PAT006".toList] := by
  unfold styleIssue? at h
  split_ifs at h
  all_goals
    obtain rfl := Option.some.inj h
    simp

theorem linesOf_filterMap_styleIssue? (q : PatternProblem) (ps : List Pattern) :
    linesOf (codeOf q) (ps.filterMap styleIssue?) = [] := by
  refine List.eq_nil_iff_forall_not_mem.2 fun k hk => ?_
  obtain ⟨i, hi, hcode, -⟩ := mem_linesOf.1 hk
  obtain ⟨p, -, hp⟩ := List.mem_filterMap.1 hi
  have hstyle := hcode ▸ code_of_styleIssue? hp
  revert hstyle
  cases q <;> decide

end

/-! ## Both searches together -/

theorem exists_of_closed {line : Nat} {before : Option Char} {t : Text} {p : Pattern} {n : Nat}
    (h : Pattern.closed line before t = some (p, n)) : ∃ rest,
      t = '{' :: p.substitution.mark :: (p.identifier ++ '}' :: rest) ∧
        p.problem = Pattern.problemOf p.identifier := by
  unfold Pattern.closed at h
  split at h
  · cases h
  · next s hs =>
    obtain ⟨u, rfl⟩ := opening?_eq_some.1 hs
    simp only [List.drop_succ_cons, List.drop_zero] at h
    split at h
    · next hmem =>
      obtain ⟨a, rest, rfl, ha⟩ := List.eq_append_cons_of_mem hmem
      rw [Text.takeWhile_ne_append_cons ha] at h
      obtain ⟨rfl, -⟩ := Prod.mk.inj (Option.some.inj h)
      exact ⟨rest, rfl, rfl⟩
    · cases h

/-- What is wrong with a pattern of a line, unless its identifier is ill formed, can be seen from
the line. -/
theorem shows_of_mem_ofLine {line : Nat} {t : Text} {p : Pattern} {q : PatternProblem}
    (h : p ∈ Pattern.ofLine line t) (hp : p.problem = some q) (hq : q ≠ .ill) : Shows t q := by
  rw [ofLine_eq_searches, List.mem_append] at h
  rcases h with hclosed | hopen
  · obtain ⟨_, _, _, ⟨u, rfl⟩, hfound⟩ := Recogniser.exists_of_mem_collect hclosed
    obtain ⟨rest, rfl, hproblem⟩ := exists_of_closed hfound
    rw [hproblem] at hp
    cases q with
    | ill => exact absurd rfl hq
    | unclosed => exact absurd hp (Pattern.problemOf_ne_unclosed _)
    | empty => exact ⟨u, _, _, rest, rfl, Pattern.blank_of_problemOf hp⟩
  · obtain ⟨⟨s, rest⟩, hs, rfl⟩ := Option.map_eq_some_iff.1 (Option.mem_toList.1 hopen)
    obtain rfl : PatternProblem.unclosed = q := Option.some.inj hp
    exact isSome_openAtEnd?_iff.1 (by rw [hs]; rfl)

section

variable {lines : List Text} {q : PatternProblem}

/-- The issues of the patterns with a fault, and behind them those of the lines. -/
def faults (lines : List Text) : List Issue :=
  (Pattern.ofLines lines).filterMap formIssue? ++
    (lines.mapIdx fun i t => lineIssues (i + 1) t).flatten

theorem mem_linesOf_flatten_lineIssues {k : Option Nat} :
    k ∈ linesOf (codeOf q) (lines.mapIdx fun i t => lineIssues (i + 1) t).flatten ↔
      ∃ i t, lines[i]? = some t ∧ Shows t q ∧ k = some (i + 1) := by
  simp only [← mem_linesOf_lineIssues, mem_linesOf, Pattern.mem_flatten_mapIdx]
  constructor
  · rintro ⟨j, ⟨i, t, ht, hj⟩, hcode, hline⟩
    exact ⟨i, t, ht, j, hj, hcode, hline⟩
  · rintro ⟨i, t, ht, j, hj, hcode, hline⟩
    exact ⟨j, ⟨i, t, ht, hj⟩, hcode, hline⟩

/-- The search of the lines finds what the patterns tell of, and more. -/
theorem mem_linesOf_faults (hq : q ≠ .ill) {k : Option Nat} :
    k ∈ linesOf (codeOf q) (faults lines) ↔
      ∃ i t, lines[i]? = some t ∧ Shows t q ∧ k = some (i + 1) := by
  rw [faults, linesOf_append, List.mem_append, mem_linesOf_flatten_lineIssues, or_iff_right_of_imp]
  intro hk
  rw [linesOf_filterMap_formIssue?, List.mem_map] at hk
  obtain ⟨p, hp, rfl⟩ := hk
  obtain ⟨hmem, hproblem⟩ := List.mem_filter.1 hp
  obtain ⟨i, t, ht, hmem⟩ := Pattern.mem_flatten_mapIdx.1 hmem
  refine ⟨i, t, ht, shows_of_mem_ofLine hmem (of_decide_eq_true hproblem) hq, ?_⟩
  rw [Pattern.line_of_mem_ofLine hmem]

theorem linesOf_ill_faults : linesOf (codeOf .ill) (faults lines) =
    ((Pattern.ofLines lines).filter (·.problem = some .ill)).map fun p => some p.line := by
  have hlines : linesOf (codeOf .ill) (lines.mapIdx fun i t => lineIssues (i + 1) t).flatten = [] := by
    refine List.eq_nil_iff_forall_not_mem.2 fun k hk => ?_
    obtain ⟨_, _, _, hshows, -⟩ := mem_linesOf_flatten_lineIssues.1 hk
    exact hshows
  rw [faults, linesOf_append, hlines, List.append_nil, linesOf_filterMap_formIssue?]

variable {d : Document} (h : d.patterns = Pattern.ofLines (Text.lines d.text))
include h

theorem linesOf_patterns (q : PatternProblem) : linesOf (codeOf q) (patterns d) =
    linesOf (codeOf q) (oncePerLine [] (faults (Text.lines d.text))) := by
  rw [patterns, h, linesOf_append, linesOf_filterMap_styleIssue?, List.append_nil, faults]

theorem once_linesOf_patterns (hq : q ≠ .ill) : (linesOf (codeOf q) (patterns d)).Nodup ∧
    ∀ k, k ∈ linesOf (codeOf q) (patterns d) ↔
      ∃ i l, (Text.lines d.text)[i]? = some l ∧ Shows l q ∧ k = some (i + 1) := by
  have hcode : codeOf q = "PAT002".toList ∨ codeOf q = "PAT003".toList := by
    cases q with
    | ill => exact absurd rfl hq
    | unclosed => exact Or.inl rfl
    | empty => exact Or.inr rfl
  obtain ⟨hnodup, hmem⟩ := linesOf_oncePerLine hcode [] (faults (Text.lines d.text))
  rw [linesOf_patterns h]
  refine ⟨hnodup, fun k => ?_⟩
  rw [hmem, mem_linesOf_faults hq, and_iff_left List.not_mem_nil]

theorem linesOf_ill_patterns : linesOf (codeOf .ill) (patterns d) =
    (d.patterns.filter (·.problem = some .ill)).map fun p => some p.line := by
  rw [linesOf_patterns h, linesOf_oncePerLine_of_ne (by decide), linesOf_ill_faults, h]

end

/-- **The lines that are reported.** For every document that is read, a line is reported for an
empty pattern if it holds one, and for an unclosed pattern if one opens behind its last closing
brace, and at most once for each; and patterns that are ill formed are reported one by one. -/
theorem lines_of_patterns [Yaml.Loader] {text : Text} {d : Document}
    (h : Document.read text = .ok d) :
    (linesOf "PAT003" (patterns d)).Nodup ∧
      (∀ k, k ∈ linesOf "PAT003" (patterns d) ↔ ∃ i l,
        (Text.lines (Document.withoutMark text))[i]? = some l ∧ HoldsEmpty l ∧ k = some (i + 1)) ∧
      (linesOf "PAT002" (patterns d)).Nodup ∧
      (∀ k, k ∈ linesOf "PAT002" (patterns d) ↔ ∃ i l,
        (Text.lines (Document.withoutMark text))[i]? = some l ∧ EndsOpen l ∧ k = some (i + 1)) ∧
      linesOf "PAT001" (patterns d) =
        (d.patterns.filter (·.problem = some .ill)).map fun p => some p.line := by
  obtain ⟨m, start, -, rfl⟩ := Document.read_eq_ok h
  have hpatterns : (Document.ofBody m start (Document.withoutMark text)).patterns =
      Pattern.ofLines (Text.lines (Document.withoutMark text)) := rfl
  obtain ⟨hnodup, hmem⟩ := once_linesOf_patterns (q := .empty) hpatterns nofun
  obtain ⟨hnodup', hmem'⟩ := once_linesOf_patterns (q := .unclosed) hpatterns nofun
  exact ⟨hnodup, hmem, hnodup', hmem', linesOf_ill_patterns hpatterns⟩

/-- Four lines behind a mark. The first one holds two empty patterns, the second one an empty pattern
inside of another, and the last one has faults of each kind. -/
def faultyLines : Text :=
  "\uFEFF\x7b$ \x7d\x7b#\t\x7d\n\x7b$a\x7b#\x7d\n\x7b%x\n\x7b#a b\x7d \x7b$\x7d \x7b$\n".toList

/-- The lines that are reported of the four, none of which the mark belongs to. -/
theorem lines_of_patterns_faultyLines :
    ∃ d, Document.read faultyLines = .ok d ∧
      (Text.lines d.text).head? = some "\x7b$ \x7d\x7b#\t\x7d".toList ∧
      linesOf "PAT003" (patterns d) = [some 1, some 4, some 2] ∧
      linesOf "PAT002" (patterns d) = [some 3, some 4] ∧
      linesOf "PAT001" (patterns d) = [some 2, some 4] ∧
      ∀ k, k ∈ linesOf "PAT003" (patterns d) ↔ ∃ i l,
        (Text.lines (Document.withoutMark faultyLines))[i]? = some l ∧ HoldsEmpty l ∧
          k = some (i + 1) := by
  have h : Document.read faultyLines =
      .ok (Document.ofBody none 0 (Document.withoutMark faultyLines)) := by rfl
  exact ⟨_, h, by decide +kernel, by decide +kernel, by decide +kernel, by decide +kernel,
    (lines_of_patterns h).2.1⟩

end Check

end ScriptAudit
