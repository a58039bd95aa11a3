import ScriptAudit.Proofs.Check.Patterns
import ScriptAudit.Proofs.Veil.Identifier
import ScriptAudit.Proofs.Veil.Issue

/-!
# A password in a pattern

A pattern that takes in a password is never well formed, because of the colon in front of it. The
patterns of two lines that differ in a password are therefore the same but for such patterns, which
have the same faults (`Pattern.forall₂_ofLines`), and they use the same variables
(`Pattern.Twin.usedName?_eq`).
-/

namespace ScriptAudit

open Redaction (Veiled EndsWithUser)

/-- One element of a list in the midst of what is made of each with its number. -/
theorem flatten_mapIdx_append_cons {α β : Type} (g : Nat → α → List β) (above below : List α) (a : α) :
    ((above ++ a :: below).mapIdx g).flatten = (above.mapIdx g).flatten ++
      (g above.length a ++ (below.mapIdx fun i => g (i + 1 + above.length)).flatten) := by
  rw [List.mapIdx_append, List.mapIdx_cons, List.flatten_append, List.flatten_cons, Nat.zero_add]

namespace Pattern

/-! ## Openings -/

theorem opening?_colon (c : Char) (t : Text) : opening? (c :: ':' :: t) = none := by
  cases h : opening? (c :: ':' :: t) with
  | none => rfl
  | some s =>
    obtain ⟨rest, heq⟩ := opening?_eq_some.1 h
    obtain ⟨hmark, -⟩ := List.cons.inj (List.cons.inj heq).2
    cases s <;> exact absurd hmark (by decide)

theorem opening?_enclosed (c : Char) (front back p q : Text) :
    opening? (c :: (front ++ (enclosed p ++ back))) =
      opening? (c :: (front ++ (enclosed q ++ back))) := by
  cases front with
  | nil =>
    rw [List.nil_append, List.nil_append, enclosed_append, enclosed_append, opening?_colon,
      opening?_colon]
  | cons m front => exact opening?_cons_cons c m _ _

/-! ## Scanning -/

theorem problemOf_enclosed (p t s : Text) : problemOf (t ++ (enclosed p ++ s)) = some .ill := by
  have hblank : Text.blank (t ++ (enclosed p ++ s)) = false := by
    rw [Text.blank, ← Bool.not_eq_true, List.all_eq_true]
    intro h
    exact absurd (h ':' (by simp [enclosed])) (by decide)
  rw [problemOf, hblank, Identifier.isValid_enclosed]
  rfl

/-- Two patterns that are the same or are not well formed and differ in a password. -/
inductive Twin (p q : Text) : Pattern → Pattern → Prop
  /-- The patterns are the same. -/
  | refl (a : Pattern) : Twin p q a a
  /-- The pattern takes in the password. -/
  | veiled {s : Substitution} {line : Nat} {problem : PatternProblem} {u : Text} (v : Text)
      (fault : problem = .ill ∨ problem = .unclosed) (user : EndsWithUser (s.mark :: u)) :
      Twin p q ⟨s, u ++ (enclosed p ++ v), line, some problem⟩
        ⟨s, u ++ (enclosed q ++ v), line, some problem⟩

section

variable {p q : Text}

/-- A pattern that takes in a password is not well formed. -/
theorem scan_enclosed {p : Text} (hp : IsPassword p) (line : Nat) (s : Substitution) {u : Text}
    (hu : '}' ∉ u) (back : Text) :
    scan line 0 ('{' :: s.mark :: (u ++ (enclosed p ++ back))) =
      ⟨s, u ++ (enclosed p ++ back.takeWhile (· ≠ '}')), line,
        some (if '}' ∈ back then .ill else .unclosed)⟩ ::
      scan line 0 ((back.dropWhile (· ≠ '}')).drop 1) := by
  have hp' : '}' ∉ enclosed p := hp.notMem (by decide) (by decide) (by decide)
  have hmem : '}' ∈ u ++ (enclosed p ++ back) ↔ '}' ∈ back := by simp [hu, hp']
  have hrun := Text.forall_ne_of_notMem hu
  have hrun' := Text.forall_ne_of_notMem hp'
  rw [scan_opening, List.takeWhile_append_of_pos hrun, List.takeWhile_append_of_pos hrun',
    List.dropWhile_append_of_pos hrun, List.dropWhile_append_of_pos hrun', problemOf_enclosed]
  simp only [hmem]
  split
  · rfl
  · next hback =>
    have hnil : back.dropWhile (· ≠ '}') = [] := List.dropWhile_eq_nil_iff.2 (Text.forall_ne_of_notMem hback)
    rw [hnil]
    rfl

/-- The patterns of a line do not depend on a password but where they take it in. -/
theorem forall₂_scan (hp : IsPassword p) (hq : IsPassword q) (line : Nat) {skip : Nat} {front : Text}
    (hfront : front = [] ∨ EndsWithUser front) (hskip : skip ≤ front.length) (back : Text) :
    List.Forall₂ (Twin p q) (scan line skip (front ++ (enclosed p ++ back)))
      (scan line skip (front ++ (enclosed q ++ back))) := by
  have hbrace {p : Text} (hp : IsPassword p) : '{' ∉ enclosed p :=
    hp.notMem (by decide) (by decide) (by decide)
  induction front generalizing skip with
  | nil =>
    obtain rfl : skip = 0 := by simpa using hskip
    rw [List.nil_append, List.nil_append, scan_append (hbrace hp), scan_append (hbrace hq)]
    exact List.forall₂_same.2 fun a _ => .refl a
  | cons c front ih =>
    have htail := (hfront.resolve_left (List.cons_ne_nil c front)).eq_nil_or
    cases skip with
    | succ skip => exact ih htail (Nat.le_of_succ_le_succ hskip)
    | zero =>
      cases hs : opening? (c :: (front ++ (enclosed q ++ back))) with
      | none =>
        rw [List.cons_append, List.cons_append, scan, scan, opening?_enclosed c front back p q, hs]
        exact ih htail (Nat.zero_le _)
      | some s =>
        obtain ⟨rest, heq⟩ := opening?_eq_some.1 hs
        obtain ⟨rfl, hrest⟩ := List.cons.inj heq
        cases front with
        | nil =>
          obtain ⟨hmark, -⟩ := List.cons.inj hrest
          cases s <;> exact absurd hmark (by decide)
        | cons m u =>
          obtain ⟨rfl, -⟩ := List.cons.inj hrest
          have huser : EndsWithUser (s.mark :: u) := htail.resolve_left (List.cons_ne_nil _ _)
          by_cases hmem : '}' ∈ u
          · -- the pattern ends in front of the password
            obtain ⟨a, b, rfl, ha⟩ := List.eq_append_cons_of_mem hmem
            have hscan (z : Text) : scan line 0 ('{' :: s.mark :: (a ++ '}' :: b) ++ z) =
                ⟨s, a, line, problemOf a⟩ ::
                  scan line (a.length + 2) (s.mark :: (a ++ '}' :: b) ++ z) := by
              simp only [List.cons_append, List.append_assoc]
              exact scan_closed line s ha (b ++ z)
            rw [hscan, hscan]
            refine .cons (.refl _) (ih htail ?_)
            simp only [List.length_cons, List.length_append]
            omega
          · simp only [List.cons_append]
            rw [scan_enclosed hp line s hmem, scan_enclosed hq line s hmem]
            refine .cons (.veiled _ ?_ huser) (List.forall₂_same.2 fun a _ => .refl a)
            split
            · exact Or.inl rfl
            · exact Or.inr rfl

/-- The patterns of all lines. -/
theorem forall₂_ofLines (hp : IsPassword p) (hq : IsPassword q) {front : Text}
    (hfront : EndsWithUser front) (back : Text) (above below : List Text) :
    List.Forall₂ (Twin p q) (ofLines (above ++ (front ++ (enclosed p ++ back)) :: below))
      (ofLines (above ++ (front ++ (enclosed q ++ back)) :: below)) := by
  have hrefl (ps : List Pattern) : List.Forall₂ (Twin p q) ps ps :=
    List.forall₂_same.2 fun a _ => .refl a
  rw [ofLines, ofLines, flatten_mapIdx_append_cons, flatten_mapIdx_append_cons]
  exact List.rel_append (hrefl _) (List.rel_append
    (forall₂_scan hp hq _ (Or.inr hfront) (Nat.zero_le _) back) (hrefl _))

/-! ## Patterns that differ in a password -/

namespace Twin

variable {a b : Pattern}

theorem problem_eq (h : Twin p q a b) : a.problem = b.problem := by cases h <;> rfl

theorem usedName?_eq (hp : IsPassword p) (hq : IsPassword q) (h : Twin p q a b) :
    Identifier.usedName? a.identifier = Identifier.usedName? b.identifier := by
  cases h with
  | refl => rfl
  | veiled v _ _ => exact Identifier.usedName?_enclosed hp hq _ v

/-- Well-formed patterns take in no password. -/
theorem eq_of_isValid (h : Twin p q a b) (ha : a.isValid = true) : a = b := by
  cases h with
  | refl => rfl
  | veiled => exact absurd ha (by simp [isValid])

/-- The same is said about both patterns, once it is masked. -/
theorem formIssue?_veil {f : Text → Text} (hp : IsPassword p) (hq : IsPassword q)
    (hf : Blind p q f) (h : Twin p q a b) :
    (Check.formIssue? a).map (Issue.veil f) = (Check.formIssue? b).map (Issue.veil f) := by
  cases h with
  | refl => rfl
  | @veiled s line problem u v fault user =>
    have hveiled : Veiled p q ('{' :: s.mark :: (u ++ (enclosed p ++ v)))
        ('{' :: s.mark :: (u ++ (enclosed q ++ v))) :=
      ⟨'{' :: s.mark :: u, v, user.append ['{'], rfl, rfl⟩
    rcases fault with rfl | rfl
    · have hmessage := (hveiled.append "Invalid pattern syntax: \"".toList (['}'] ++ ['"'])).mask_eq hp hq
      rw [← List.append_assoc _ ['}'], ← List.append_assoc _ ['}'], ← List.append_assoc,
        ← List.append_assoc] at hmessage
      rw [Check.formIssue?, Check.formIssue?]
      simp only [Option.map_some, Issue.veil]
      exact congrArg (fun m : Text => some (Issue.mk _ m _ _ _ _)) hmessage
    · have hcontext := hf _ _ hveiled
      rw [Check.formIssue?, Check.formIssue?]
      exact congrArg (fun c : Text => some (Issue.mk _ _ _ _ _ (some c))) hcontext

end Twin

end

end Pattern

/-! ## Lines -/

namespace Check

section

variable {p q : Text}

theorem openAtEnd?_append {u : Text} (hu : '{' ∉ u) (t : Text) :
    openAtEnd? (u ++ t) = openAtEnd? t := by
  induction u with
  | nil => rfl
  | cons c u ih =>
    rw [List.mem_cons, not_or] at hu
    rw [List.cons_append, openAtEnd?, Pattern.opening?_of_ne (Ne.symm hu.1)]
    exact ih hu.2

/-- An opening that is not closed stands behind the password, or in front of it and takes it in. -/
theorem openAtEnd?_enclosed (hp : IsPassword p) (hq : IsPassword q) {front : Text}
    (hfront : front = [] ∨ EndsWithUser front) (back : Text) :
    openAtEnd? (front ++ (enclosed p ++ back)) = openAtEnd? (front ++ (enclosed q ++ back)) ∨
      ∃ s u, EndsWithUser (s.mark :: u) ∧
        openAtEnd? (front ++ (enclosed p ++ back)) = some (s, u ++ (enclosed p ++ back)) ∧
        openAtEnd? (front ++ (enclosed q ++ back)) = some (s, u ++ (enclosed q ++ back)) := by
  have hbrace {p : Text} (hp : IsPassword p) : '{' ∉ enclosed p :=
    hp.notMem (by decide) (by decide) (by decide)
  have hclosing {p : Text} (hp : IsPassword p) (front : Text) :
      (front ++ (enclosed p ++ back)).elem '}' = (front ++ back).elem '}' := by
    have hp' : '}' ∉ enclosed p := hp.notMem (by decide) (by decide) (by decide)
    rw [List.elem_eq_mem, List.elem_eq_mem]
    simp [hp']
  induction front with
  | nil =>
    left
    rw [List.nil_append, List.nil_append, openAtEnd?_append (hbrace hp),
      openAtEnd?_append (hbrace hq)]
  | cons c front ih =>
    have htail := (hfront.resolve_left (List.cons_ne_nil c front)).eq_nil_or
    rw [List.cons_append, List.cons_append, openAtEnd?, openAtEnd?,
      Pattern.opening?_enclosed c front back p q, hclosing hp, hclosing hq]
    cases hs : Pattern.opening? (c :: (front ++ (enclosed q ++ back))) with
    | none => exact ih htail
    | some s =>
      cases hclosed : (front ++ back).elem '}' with
      | true => exact ih htail
      | false =>
        obtain ⟨rest, heq⟩ := Pattern.opening?_eq_some.1 hs
        obtain ⟨-, hrest⟩ := List.cons.inj heq
        cases front with
        | nil =>
          obtain ⟨hmark, -⟩ := List.cons.inj hrest
          cases s <;> exact absurd hmark (by decide)
        | cons m u =>
          obtain ⟨rfl, -⟩ := List.cons.inj hrest
          exact Or.inr ⟨s, u, htail.resolve_left (List.cons_ne_nil _ _), rfl, rfl⟩

theorem overlooks_emptyPattern : emptyPattern.Overlooks where
  before_colon before t s s' := by
    have hblank : isBlank ':' = false := by decide
    rw [emptyPattern_eq, emptyPattern_eq]
    match t with
    | [] => rfl
    | [c] =>
      rw [List.singleton_append, List.singleton_append, Pattern.opening?_colon,
        Pattern.opening?_colon]
    | c :: m :: t =>
      simp only [List.cons_append, List.drop_succ_cons, List.drop_zero,
        Text.takeWhile_append_cons hblank, Text.dropWhile_append_cons hblank, List.head?_append]
      rw [Pattern.opening?_cons_cons c m (t ++ ':' :: s) (t ++ ':' :: s')]
      rfl
  le_length before t s a n h := by
    have hblank : isBlank ':' = false := by decide
    rw [emptyPattern_eq] at h
    match t, h with
    | [], h => exact absurd h (by simp [Pattern.opening?])
    | [c], h =>
      rw [List.singleton_append, Pattern.opening?_colon] at h
      cases h
    | c :: m :: t, h =>
      simp only [List.cons_append, List.drop_succ_cons, List.drop_zero,
        Text.takeWhile_append_cons hblank, Text.dropWhile_append_cons hblank] at h
      have hsplit := Text.length_takeWhile_add isBlank t
      cases hopening : Pattern.opening? (c :: m :: (t ++ ':' :: s)) with
      | none => simp [hopening] at h
      | some s =>
        rw [hopening] at h
        obtain ⟨hhead, heq⟩ := Option.ite_none_right_eq_some.1 h
        obtain ⟨-, rfl⟩ := Prod.mk.inj (Option.some.inj heq)
        cases hrest : t.dropWhile isBlank with
        | nil => simp [hrest] at hhead
        | cons d rest =>
          rw [hrest, List.length_cons] at hsplit
          simp only [List.length_cons]
          omega
  eq_none p hp x y s hsplit hy := by
    obtain ⟨c, y, rfl⟩ := List.exists_cons_of_ne_nil hy
    have hc : c ∈ p ++ ['@'] := hsplit ▸ by simp
    have hne : c ≠ '{' := fun heq =>
      hp.notMem (by decide) (by decide) (by decide) (heq ▸ List.mem_cons_of_mem ':' hc)
    rw [emptyPattern_eq, List.cons_append, Pattern.opening?_of_ne hne]

/-- What is said about a line is the same for each password, once it is masked. -/
theorem lineIssues_veil {f : Text → Text} (hp : IsPassword p) (hq : IsPassword q) (hf : Blind p q f)
    (line : Nat) {front : Text} (hfront : EndsWithUser front) (back : Text) :
    (lineIssues line (front ++ (enclosed p ++ back))).map (Issue.veil f) =
      (lineIssues line (front ++ (enclosed q ++ back))).map (Issue.veil f) := by
  rw [lineIssues, lineIssues, overlooks_emptyPattern.occurrences_eq hp hq, List.map_append,
    List.map_append]
  congr 1
  rcases openAtEnd?_enclosed hp hq (Or.inr hfront) back with heq | ⟨s, u, hu, hfirst, hsecond⟩
  · rw [heq]
  · have hcontext := hf ('{' :: s.mark :: (u ++ (enclosed p ++ back)))
      ('{' :: s.mark :: (u ++ (enclosed q ++ back)))
      ⟨'{' :: s.mark :: u, back, hu.append ['{'], rfl, rfl⟩
    rw [hfirst, hsecond]
    exact congrArg (fun c : Text => [Issue.mk _ _ _ _ _ (some c)]) hcontext

/-! ## Documents -/

theorem oncePerLine_map_veil (f : Text → Text) (seen : List (Text × Option Nat)) (is : List Issue) :
    oncePerLine seen (is.map (Issue.veil f)) = (oncePerLine seen is).map (Issue.veil f) := by
  induction is generalizing seen with
  | nil => rfl
  | cons i is ih =>
    have hcode : (i.veil f).code = i.code := rfl
    have hline : (i.veil f).line = i.line := rfl
    rw [List.map_cons, oncePerLine, oncePerLine, hcode, hline]
    split
    · split
      · exact ih seen
      · rw [ih, List.map_cons]
    · rw [ih, List.map_cons]

/-- Only well-formed patterns can be of bad style. -/
theorem styleIssues_eq {ps qs : List Pattern} (h : List.Forall₂ (Pattern.Twin p q) ps qs) :
    (ps.filter Pattern.isValid).filterMap styleIssue? =
      (qs.filter Pattern.isValid).filterMap styleIssue? := by
  rw [List.filterMap_filter, List.filterMap_filter]
  refine filterMap_eq_of_forall₂ h fun a b hab => ?_
  have hvalid : a.isValid = b.isValid := by rw [Pattern.isValid, Pattern.isValid, hab.problem_eq]
  split
  · next ha => rw [← hab.eq_of_isValid ha, if_pos ha]
  · next ha => rw [if_neg (hvalid ▸ ha)]

/-- The issues of the patterns of two documents are the same, once they are masked, when the
patterns are the same but for a password, and so are the lines. -/
theorem patterns_veil {f : Text → Text} (hp : IsPassword p) (hq : IsPassword q) (hf : Blind p q f)
    {front back : Text} (hfront : EndsWithUser front) {above below : List Text} {d d' : Document}
    (hlines : Text.lines d.text = above ++ (front ++ (enclosed p ++ back)) :: below)
    (hlines' : Text.lines d'.text = above ++ (front ++ (enclosed q ++ back)) :: below)
    (hpatterns : List.Forall₂ (Pattern.Twin p q) d.patterns d'.patterns) :
    (patterns d).map (Issue.veil f) = (patterns d').map (Issue.veil f) := by
  have hform : (d.patterns.filterMap formIssue?).map (Issue.veil f) =
      (d'.patterns.filterMap formIssue?).map (Issue.veil f) := by
    rw [List.map_filterMap, List.map_filterMap]
    exact filterMap_eq_of_forall₂ hpatterns fun _ _ hab => hab.formIssue?_veil hp hq hf
  rw [patterns, patterns, hlines, hlines', styleIssues_eq hpatterns, List.map_append,
    List.map_append, ← oncePerLine_map_veil, ← oncePerLine_map_veil, List.map_append,
    List.map_append, hform, flatten_mapIdx_append_cons, flatten_mapIdx_append_cons]
  simp only [List.map_append, lineIssues_veil hp hq hf _ hfront]

end

end Check

end ScriptAudit
