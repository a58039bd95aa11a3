import ScriptAudit.Document.Pattern
import ScriptAudit.Proofs.Text.Search

/-!
# The patterns of a line

A line is read from left to right: in front of a pattern nothing opens one, a pattern goes up to the
first closing brace, and one that is not closed goes up to the end (`Pattern.Finds`). So the line is
cut at its patterns, and no opening is left out or counted twice. Main statement:
`Pattern.cut_of_ofLines`.

* `Pattern.Opens` — whether a pattern opens in a text.
* `Pattern.finds_scan` — scanning finds patterns in this way.
* `Pattern.Cut`, `Pattern.Cut.Exact` — a line cut at its patterns.
-/

namespace ScriptAudit.Pattern

/-! ## Openings -/

theorem opening?_eq_some {t : Text} {s : Substitution} :
    opening? t = some s ↔ ∃ rest, t = '{' :: s.mark :: rest := by
  constructor
  · intro h
    rw [opening?.eq_def] at h
    split at h
    · next m rest =>
      refine ⟨rest, ?_⟩
      rw [Substitution.ofMark?.eq_def] at h
      split at h <;> cases h <;> rfl
    · cases h
  · rintro ⟨rest, rfl⟩
    cases s <;> rfl

/-- An opening is told by two characters. -/
theorem opening?_cons_cons (c m : Char) (t t' : Text) :
    opening? (c :: m :: t) = opening? (c :: m :: t') := by
  have himp {t t' : Text} {s : Substitution} (h : opening? (c :: m :: t) = some s) :
      opening? (c :: m :: t') = some s := by
    obtain ⟨rest, heq⟩ := opening?_eq_some.1 h
    obtain ⟨hc, hm, -⟩ : c = '{' ∧ m = s.mark ∧ t = rest := by simpa using heq
    exact opening?_eq_some.2 ⟨t', by rw [hc, hm]⟩
  exact Option.ext fun s => ⟨himp, himp⟩

theorem opening?_of_ne {c : Char} (hc : c ≠ '{') (t : Text) : opening? (c :: t) = none := by
  cases h : opening? (c :: t) with
  | none => rfl
  | some s =>
    obtain ⟨rest, heq⟩ := opening?_eq_some.1 h
    exact absurd (List.cons.inj heq).1 hc

/-- Whether a pattern opens somewhere in a text. -/
def Opens (t : Text) : Prop := ∃ s : Substitution, ['{', s.mark] <:+: t

theorem not_opens_nil : ¬ Opens [] := by
  rintro ⟨s, hs⟩
  exact absurd (List.infix_nil.1 hs) (by simp)

theorem opens_cons_iff {c : Char} {t : Text} :
    Opens (c :: t) ↔ (opening? (c :: t)).isSome = true ∨ Opens t := by
  have hhere : (∃ s : Substitution, ['{', s.mark] <+: c :: t) ↔ (opening? (c :: t)).isSome = true := by
    simp only [Option.isSome_iff_exists, opening?_eq_some]
    exact exists_congr fun s => ⟨fun ⟨u, hu⟩ => ⟨u, hu.symm⟩, fun ⟨u, hu⟩ => ⟨u, hu.symm⟩⟩
  simp only [Opens, List.infix_cons_iff, exists_or, hhere]

/-- A brace is no mark. -/
theorem head?_brace_ne_mark (t : Text) (s : Substitution) : ('{' :: t).head? ≠ some s.mark := by
  cases s <;> simp [Substitution.mark]

/-- What is opened in a text is opened whatever stands behind it. -/
theorem opening?_append {t : Text} {s : Substitution} (h : opening? t = some s) (u : Text) :
    opening? (t ++ u) = some s := by
  obtain ⟨rest, rfl⟩ := opening?_eq_some.1 h
  exact opening?_eq_some.2 ⟨rest ++ u, rfl⟩

/-- Nothing opens in a text, or else there is a first opening. -/
theorem exists_first_opening (t : Text) :
    ¬ Opens t ∨ ∃ gap, ∃ s : Substitution, ∃ rest, t = gap ++ '{' :: s.mark :: rest ∧ ¬ Opens gap := by
  induction t with
  | nil => exact Or.inl not_opens_nil
  | cons c t ih =>
    cases hs : opening? (c :: t) with
    | some s =>
      obtain ⟨rest, hrest⟩ := opening?_eq_some.1 hs
      exact Or.inr ⟨[], s, rest, hrest, not_opens_nil⟩
    | none =>
      rcases ih with hfree | ⟨gap, s, rest, rfl, hfree⟩
      · refine Or.inl ?_
        rw [opens_cons_iff, hs]
        simp [hfree]
      · refine Or.inr ⟨c :: gap, s, rest, rfl, ?_⟩
        rw [opens_cons_iff, not_or]
        refine ⟨fun hsome => ?_, hfree⟩
        obtain ⟨s', hs'⟩ := Option.isSome_iff_exists.1 hsome
        have := opening?_append hs' ('{' :: s.mark :: rest)
        rw [List.cons_append, hs] at this
        cases this

/-- A text in which nothing opens does not open anything in front of what is no mark. -/
theorem opening?_eq_none_of_not_opens {y t : Text} (hy : y ≠ []) (h : ¬ Opens y)
    (ht : ∀ s : Substitution, t.head? ≠ some s.mark) : opening? (y ++ t) = none := by
  refine Option.eq_none_iff_forall_ne_some.2 fun s hs => ?_
  obtain ⟨rest, hrest⟩ := opening?_eq_some.1 hs
  obtain ⟨c, y, rfl⟩ := List.exists_cons_of_ne_nil hy
  obtain ⟨rfl, hbehind⟩ := List.cons.inj hrest
  cases y with
  | nil =>
    have ht' : t = s.mark :: rest := hbehind
    exact ht s (by rw [ht']; rfl)
  | cons m y =>
    obtain ⟨rfl, -⟩ := List.cons.inj hbehind
    exact h ⟨s, [], y, rfl⟩

theorem not_opens_suffix {u y : Text} (h : ¬ Opens u) (hy : y <:+ u) : ¬ Opens y :=
  fun ⟨s, hs⟩ => h ⟨s, hs.trans hy.isInfix⟩

/-! ## Scanning -/

theorem scan_eq_drop (line skip : Nat) (t : Text) : scan line skip t = scan line 0 (t.drop skip) := by
  induction t generalizing skip with
  | nil => cases skip <;> rfl
  | cons c t ih =>
    cases skip with
    | zero => rfl
    | succ skip => exact ih skip

theorem scan_append {u : Text} (hu : '{' ∉ u) (line : Nat) (t : Text) :
    scan line 0 (u ++ t) = scan line 0 t := by
  induction u with
  | nil => rfl
  | cons c u ih =>
    rw [List.mem_cons, not_or] at hu
    rw [List.cons_append, scan, opening?_of_ne (Ne.symm hu.1)]
    exact ih hu.2

/-- Scanning goes on behind the closing brace. -/
theorem scan_behind_closed (line : Nat) (m : Char) (a b : Text) :
    scan line (a.length + 2) (m :: (a ++ '}' :: b)) = scan line 0 b := by
  rw [scan_eq_drop]
  simp

section

variable (line : Nat) (s : Substitution) {a : Text} (ha : '}' ∉ a)
include ha

theorem scan_closed (b : Text) :
    scan line 0 ('{' :: s.mark :: (a ++ '}' :: b)) =
      ⟨s, a, line, problemOf a⟩ :: scan line (a.length + 2) (s.mark :: (a ++ '}' :: b)) := by
  have hopening : opening? ('{' :: s.mark :: (a ++ '}' :: b)) = some s := opening?_eq_some.2 ⟨_, rfl⟩
  conv_lhs => rw [scan, hopening]
  simp only [List.drop_succ_cons, List.drop_zero, Text.takeWhile_ne_append_cons ha]
  exact if_pos (by simp)

theorem scan_unclosed :
    scan line 0 ('{' :: s.mark :: a) = [⟨s, a, line, some .unclosed⟩] := by
  have htake : a.takeWhile (· ≠ '}') = a :=
    List.takeWhile_eq_self_iff.2 (Text.forall_ne_of_notMem ha)
  rw [scan, opening?_eq_some.2 ⟨_, rfl⟩]
  simp only [List.drop_succ_cons, List.drop_zero, htake]
  exact if_neg (by simp)

end

/-- A pattern goes up to the next closing brace, if there is one. -/
theorem scan_opening (line : Nat) (s : Substitution) (t : Text) :
    scan line 0 ('{' :: s.mark :: t) =
      if '}' ∈ t then
        ⟨s, t.takeWhile (· ≠ '}'), line, problemOf (t.takeWhile (· ≠ '}'))⟩ ::
          scan line 0 ((t.dropWhile (· ≠ '}')).drop 1)
      else [⟨s, t.takeWhile (· ≠ '}'), line, some .unclosed⟩] := by
  by_cases h : '}' ∈ t
  · obtain ⟨a, b, rfl, ha⟩ := List.eq_append_cons_of_mem h
    rw [if_pos h, scan_closed line s ha, scan_behind_closed,
      Text.takeWhile_ne_append_cons ha, Text.dropWhile_ne_append_cons ha]
    rfl
  · rw [if_neg h, scan_unclosed line s h,
      List.takeWhile_eq_self_iff.2 (Text.forall_ne_of_notMem h)]

/-- A text in which nothing opens is passed over. -/
theorem scan_append_of_not_opens {u t : Text} (h : ¬ Opens u)
    (ht : ∀ s : Substitution, t.head? ≠ some s.mark) (line : Nat) :
    scan line 0 (u ++ t) = scan line 0 t := by
  induction u with
  | nil => rfl
  | cons c u ih =>
    have hnone : opening? (c :: (u ++ t)) = none :=
      opening?_eq_none_of_not_opens (List.cons_ne_nil c u) h ht
    rw [List.cons_append, scan, hnone]
    exact ih (not_opens_suffix h (List.suffix_cons c u))

/-- How the patterns of a line are found. -/
inductive Finds (line : Nat) : Text → List Pattern → Prop
  /-- Nothing opens any more. -/
  | nothing {t : Text} (free : ¬ Opens t) : Finds line t []
  /-- A pattern goes up to the first closing brace, and the others stand behind it. -/
  | closed {gap a rest : Text} {ps : List Pattern} (s : Substitution) (free : ¬ Opens gap)
      (inside : '}' ∉ a) (next : Finds line rest ps) :
      Finds line (gap ++ '{' :: s.mark :: (a ++ '}' :: rest)) (⟨s, a, line, problemOf a⟩ :: ps)
  /-- A pattern that is not closed goes up to the end. -/
  | unclosed {gap a : Text} (s : Substitution) (free : ¬ Opens gap) (inside : '}' ∉ a) :
      Finds line (gap ++ '{' :: s.mark :: a) [⟨s, a, line, some .unclosed⟩]

theorem finds_scan (line : Nat) (t : Text) : Finds line t (scan line 0 t) := by
  induction hlength : t.length using Nat.strong_induction_on generalizing t with
  | _ length ih =>
    subst hlength
    rcases exists_first_opening t with hfree | ⟨gap, s, rest, rfl, hfree⟩
    · have hnil : scan line 0 t = [] := by
        have := scan_append_of_not_opens (t := []) hfree (by simp) line
        rwa [List.append_nil] at this
      rw [hnil]
      exact .nothing hfree
    · rw [scan_append_of_not_opens hfree (head?_brace_ne_mark _)]
      by_cases hclosed : '}' ∈ rest
      · obtain ⟨a, b, rfl, ha⟩ := List.eq_append_cons_of_mem hclosed
        rw [scan_closed line s ha, scan_behind_closed]
        refine .closed s hfree ha (ih b.length ?_ b rfl)
        simp only [List.length_append, List.length_cons]
        omega
      · rw [scan_unclosed line s hclosed]
        exact .unclosed s hfree hclosed

/-! ## Single patterns -/

theorem isValid_of_blank {t : Text} (h : Text.blank t = true) : Identifier.isValid t = false := by
  rw [Identifier.isValid, Text.trim, Text.trimLeft_of_blank h]
  rfl

theorem problemOf_ne_unclosed (t : Text) : problemOf t ≠ some .unclosed := by
  unfold problemOf
  split_ifs <;> simp

theorem blank_of_problemOf {t : Text} (h : problemOf t = some .empty) :
    ∀ c ∈ t, isBlank c = true := by
  unfold problemOf at h
  split_ifs at h with hblank
  · exact List.all_eq_true.1 hblank
  · simp at h

/-- What the text of a pattern says about its fault. -/
structure IsExact (p : Pattern) : Prop where
  unclosed_iff : p.problem = some .unclosed ↔ '}' ∉ p.text
  closed : p.problem ≠ some .unclosed → ∃ body, p.text = body ++ ['}'] ∧ '}' ∉ body
  empty_iff : p.problem ≠ some .unclosed →
    (p.problem = some .empty ↔ ∀ c ∈ p.identifier, isBlank c = true)
  none_iff : p.problem ≠ some .unclosed →
    (p.problem = none ↔ Identifier.isValid p.identifier = true)

section

variable (s : Substitution) {a : Text} (line : Nat) (ha : '}' ∉ a)
include ha

theorem notMem_opening : '}' ∉ '{' :: s.mark :: a := by
  have hmark : s.mark ≠ '}' := by cases s <;> decide
  simp [ha, Ne.symm hmark]

theorem isExact_closed : IsExact ⟨s, a, line, problemOf a⟩ := by
  have hproblem := problemOf_ne_unclosed a
  have htext : text ⟨s, a, line, problemOf a⟩ = ('{' :: s.mark :: a) ++ ['}'] := by
    rw [text, if_neg hproblem]
  constructor
  · exact iff_of_false hproblem fun h => h (by rw [htext]; simp)
  · intro _
    exact ⟨_, htext, notMem_opening s ha⟩
  · intro _
    show problemOf a = some .empty ↔ _
    rw [← List.all_eq_true, ← Text.blank]
    unfold problemOf
    split_ifs <;> simp [*]
  · intro _
    show problemOf a = none ↔ _
    unfold problemOf
    split_ifs with hblank hvalid
    · simp [isValid_of_blank hblank]
    · simp [hvalid]
    · simp [hvalid]

theorem isExact_unclosed : IsExact ⟨s, a, line, some .unclosed⟩ := by
  have htext : text ⟨s, a, line, some .unclosed⟩ = '{' :: s.mark :: a := by
    rw [text, if_pos rfl, List.append_nil]
  constructor
  · exact iff_of_true rfl (by rw [htext]; exact notMem_opening s ha)
  all_goals exact fun h => absurd rfl h

end

/-! ## Lines -/

/-- A line cut at its patterns: the text in front of them, and each one with the text behind it. -/
structure Cut where
  front : Text
  parts : List (Pattern × Text)

namespace Cut

/-- The line that has been cut. -/
def text (c : Cut) : Text := c.front ++ c.parts.flatMap fun part => part.1.text ++ part.2

/-- Whether a line is cut at all of its patterns, as they are. -/
structure Exact (line : Nat) (c : Cut) : Prop where
  front_free : ¬ Opens c.front
  gap_free : ∀ part ∈ c.parts, ¬ Opens part.2
  line_eq : ∀ part ∈ c.parts, part.1.line = line
  isExact : ∀ part ∈ c.parts, part.1.IsExact
  unclosed_last : ∀ before p gap after, c.parts = before ++ (p, gap) :: after →
    p.problem = some .unclosed → gap = [] ∧ after = []

end Cut

/-- A line is cut at the patterns that are found in it. -/
theorem Finds.exists_cut {line : Nat} {t : Text} {ps : List Pattern} (h : Finds line t ps) :
    ∃ c : Cut, c.text = t ∧ c.parts.map Prod.fst = ps ∧ c.Exact line := by
  induction h with
  | @nothing t free =>
    refine ⟨⟨t, []⟩, by simp [Cut.text], rfl, free, by simp, by simp, by simp, ?_⟩
    intro before p gap after h
    simp at h
  | @closed gap a rest ps s free inside next ih =>
    obtain ⟨c, htext, hparts, hc⟩ := ih
    refine ⟨⟨gap, (⟨s, a, line, problemOf a⟩, c.front) :: c.parts⟩, ?_, by simp [hparts], free, ?_, ?_,
      ?_, ?_⟩
    · rw [← htext]
      simp [Cut.text, Pattern.text, problemOf_ne_unclosed]
    · exact List.forall_mem_cons.2 ⟨hc.front_free, hc.gap_free⟩
    · exact List.forall_mem_cons.2 ⟨rfl, hc.line_eq⟩
    · exact List.forall_mem_cons.2 ⟨isExact_closed s line inside, hc.isExact⟩
    · intro before p gap after h hp
      cases before with
      | nil =>
        obtain ⟨hhead, -⟩ := List.cons.inj h
        obtain ⟨rfl, -⟩ := Prod.mk.inj hhead
        exact absurd hp (problemOf_ne_unclosed a)
      | cons part before => exact hc.unclosed_last before p gap after (List.cons.inj h).2 hp
  | @unclosed gap a s free inside =>
    refine ⟨⟨gap, [(⟨s, a, line, some .unclosed⟩, [])]⟩, ?_, rfl, free, ?_, ?_, ?_, ?_⟩
    · simp [Cut.text, Pattern.text]
    · exact List.forall_mem_singleton.2 not_opens_nil
    · exact List.forall_mem_singleton.2 rfl
    · exact List.forall_mem_singleton.2 (isExact_unclosed s line inside)
    · intro before p gap after h _
      cases before with
      | nil =>
        obtain ⟨hhead, hafter⟩ := List.cons.inj h
        exact ⟨(Prod.mk.inj hhead).2.symm, hafter.symm⟩
      | cons part before => simp at h

theorem line_of_mem_ofLine {line : Nat} {t : Text} {p : Pattern} (h : p ∈ ofLine line t) :
    p.line = line := by
  obtain ⟨c, -, hparts, hc⟩ := (finds_scan line t).exists_cut
  rw [ofLine, ← hparts] at h
  obtain ⟨part, hpart, rfl⟩ := List.mem_map.1 h
  exact hc.line_eq part hpart

section

variable {lines : List Text} {k : Nat}

theorem mem_flatten_mapIdx {α β : Type} {f : Nat → α → List β} {l : List α} {b : β} :
    b ∈ (l.mapIdx f).flatten ↔ ∃ i a, l[i]? = some a ∧ b ∈ f i a := by
  simp only [List.mem_flatten, List.mem_mapIdx]
  constructor
  · rintro ⟨_, ⟨i, hi, rfl⟩, hb⟩
    exact ⟨i, l[i], List.getElem?_eq_getElem hi, hb⟩
  · rintro ⟨i, a, ha, hb⟩
    obtain ⟨hi, rfl⟩ := List.getElem?_eq_some_iff.1 ha
    exact ⟨_, ⟨i, hi, rfl⟩, hb⟩

theorem mapIdx_ofLine_cons (t : Text) (lines : List Text) (k : Nat) :
    ((t :: lines).mapIdx fun i t => ofLine (i + k) t).flatten =
      ofLine k t ++ (lines.mapIdx fun i t => ofLine (i + (k + 1)) t).flatten := by
  rw [List.mapIdx_cons, List.flatten_cons, Nat.zero_add]
  simp only [Nat.add_right_comm _ 1 k, Nat.add_assoc]

theorem pairwise_flatten_mapIdx_ofLine (lines : List Text) (k : Nat) :
    (lines.mapIdx fun i t => ofLine (i + k) t).flatten.Pairwise fun p q => p.line ≤ q.line := by
  induction lines generalizing k with
  | nil => simp
  | cons t lines ih =>
    rw [mapIdx_ofLine_cons, List.pairwise_append]
    refine ⟨List.pairwise_iff_forall_sublist.2 fun {p q} hpq => ?_, ih (k + 1), fun p hp q hq => ?_⟩
    · have hp := line_of_mem_ofLine (hpq.subset (List.mem_cons_self))
      have hq := line_of_mem_ofLine (hpq.subset (List.mem_cons_of_mem p List.mem_cons_self))
      omega
    · obtain ⟨i, _, _, hq⟩ := mem_flatten_mapIdx.1 hq
      have := line_of_mem_ofLine hp
      have := line_of_mem_ofLine hq
      omega

/-- The patterns of a line are those with its number. -/
theorem filter_flatten_mapIdx_ofLine {i : Nat} {t : Text} (h : lines[i]? = some t) :
    (lines.mapIdx fun i t => ofLine (i + k) t).flatten.filter (·.line = i + k) = ofLine (i + k) t := by
  induction lines generalizing i k with
  | nil => simp at h
  | cons l lines ih =>
    rw [mapIdx_ofLine_cons, List.filter_append]
    cases i with
    | zero =>
      obtain rfl : l = t := by simpa using h
      have hself : (ofLine k l).filter (·.line = 0 + k) = ofLine k l := by
        refine List.filter_eq_self.2 fun p hp => ?_
        simp [line_of_mem_ofLine hp]
      have hothers : (lines.mapIdx fun i t => ofLine (i + (k + 1)) t).flatten.filter
          (·.line = 0 + k) = [] := by
        refine List.filter_eq_nil_iff.2 fun p hp => ?_
        obtain ⟨j, _, _, hp⟩ := mem_flatten_mapIdx.1 hp
        have := line_of_mem_ofLine hp
        simp only [decide_eq_true_eq]
        omega
      rw [hself, hothers, List.append_nil, Nat.zero_add]
    | succ i =>
      have hnone : (ofLine k l).filter (·.line = i + 1 + k) = [] := by
        refine List.filter_eq_nil_iff.2 fun p hp => ?_
        have := line_of_mem_ofLine hp
        simp only [decide_eq_true_eq]
        omega
      have hnext := ih (k := k + 1) (by simpa using h)
      rw [hnone, List.nil_append]
      rwa [← Nat.add_assoc, Nat.add_right_comm i k 1] at hnext

end

/-- **The patterns of numbered lines.** Each line is cut at the patterns with its number, so that
nothing opens between them; a pattern without a closing brace is the last one and goes up to the end
of its line, the others end at the first closing brace; and the patterns are in the order of their
lines. -/
theorem cut_of_ofLines (lines : List Text) :
    (∀ i t, lines[i]? = some t → ∃ c : Cut, c.text = t ∧
        c.parts.map Prod.fst = (ofLines lines).filter (·.line = i + 1) ∧ c.Exact (i + 1)) ∧
      (ofLines lines).Pairwise (fun p q => p.line ≤ q.line) ∧
        ∀ p ∈ ofLines lines, ∃ i < lines.length, p.line = i + 1 := by
  refine ⟨fun i t ht => ?_, pairwise_flatten_mapIdx_ofLine lines 1, fun p hp => ?_⟩
  · rw [ofLines, filter_flatten_mapIdx_ofLine ht]
    exact (finds_scan (i + 1) t).exists_cut
  · obtain ⟨i, t, ht, hp⟩ := mem_flatten_mapIdx.1 hp
    exact ⟨i, (List.getElem?_eq_some_iff.1 ht).1, line_of_mem_ofLine hp⟩

/-- A pattern that opens inside of another one is not cut out, and a brace that opens nothing stays
between two patterns. -/
theorem cut_of_ofLines_nested :
    ofLines [[], "\x7b$a\x7b#\x7db\x7b\x7b% \x7d\x7b$".toList] =
        [⟨.bare, "a\x7b#".toList, 2, some .ill⟩, ⟨.double, [' '], 2, some .empty⟩,
          ⟨.bare, [], 2, some .unclosed⟩] ∧
      ∃ c : Cut, c.text = "\x7b$a\x7b#\x7db\x7b\x7b% \x7d\x7b$".toList ∧
        c.parts.map Prod.fst =
          (ofLines [[], "\x7b$a\x7b#\x7db\x7b\x7b% \x7d\x7b$".toList]).filter (·.line = 2) ∧
        c.Exact 2 := by
  refine ⟨?_, ?_⟩
  · decide
  · exact (cut_of_ofLines [[], "\x7b$a\x7b#\x7db\x7b\x7b% \x7d\x7b$".toList]).1 1 _ rfl

end ScriptAudit.Pattern
