import ScriptAudit.Proofs.Text.Scan
import ScriptAudit.Proofs.Text.Words

/-!
# Searching texts that follow one another

A recogniser sees everything from its position on, so that a text behind another one may change what
is found in the first. `Recogniser.EndsBefore` says that it does not, `Recogniser.EndsIn` that it
does not for one text; then the finds in both texts together are those in the first one, followed by
those in the second (`first?_append`, `occurrences_append`). `Recogniser.Passes` says that nothing is
found in the first text at all.
-/

namespace ScriptAudit

namespace Text

/-- A start is not read beyond a character that does not occur in it. -/
theorem after?_append_cons {start : Text} {a : Char} (ha : a ∉ start) (t s : Text) :
    after? start (t ++ a :: s) = (after? start t).map (· ++ a :: s) := by
  induction start generalizing t with
  | nil => cases t <;> rfl
  | cons p ps ih =>
    rw [List.mem_cons, not_or] at ha
    cases t with
    | nil => simp [after?, Ne.symm ha.1]
    | cons c cs =>
      rw [List.cons_append, after?, after?]
      split
      · exact ih ha.2 cs
      · rfl

theorem eq_append_of_after? {start t rest : Text} (h : after? start t = some rest) :
    t = start ++ rest := by
  induction start generalizing t with
  | nil =>
    cases t <;> simpa [after?] using h
  | cons p ps ih =>
    cases t with
    | nil => simp [after?] at h
    | cons c cs =>
      rw [after?] at h
      split at h
      · next hc => rw [hc, ih h, List.cons_append]
      · cases h

theorem isSome_after?_iff_prefix {start t : Text} :
    (after? start t).isSome = true ↔ start <+: t := by
  rw [Option.isSome_iff_exists]
  constructor
  · rintro ⟨rest, h⟩
    exact ⟨rest, (eq_append_of_after? h).symm⟩
  · rintro ⟨rest, rfl⟩
    exact ⟨rest, after?_append start rest⟩

theorem contains_iff_infix {needle t : Text} : contains needle t = true ↔ needle <:+: t := by
  induction t with
  | nil => simp [contains]
  | cons c cs ih =>
    rw [contains, Bool.or_eq_true, List.isPrefixOf_iff_prefix, ih, List.infix_cons_iff]

theorem infix_append_cons {needle v : Text} (h : needle <:+: v) (u : Text) (a : Char) :
    needle <:+: u ++ a :: v :=
  h.trans ((List.suffix_cons a v).trans (List.suffix_append u _)).isInfix

/-- A text does not reach over a character that it does not hold. -/
theorem infix_append_cons_iff {needle u v : Text} {a : Char} (ha : a ∉ needle) :
    needle <:+: u ++ a :: v ↔ needle <:+: u ∨ needle <:+: v := by
  constructor
  · rintro ⟨s, t, h⟩
    rcases append_eq_append_cons h with ⟨right, hfront, rfl⟩ | ⟨left, rfl, -⟩
    · rcases append_eq_append_cons hfront with ⟨right', -, rfl⟩ | ⟨left, -, rfl⟩
      · exact Or.inr ⟨right', t, rfl⟩
      · exact absurd (List.mem_append_right _ List.mem_cons_self) ha
    · exact Or.inl ⟨s, left, rfl⟩
  · rintro (h | h)
    · exact h.trans (List.prefix_append u _).isInfix
    · exact infix_append_cons h u a

theorem cut?_of_after? {sep t rest : Text} (hne : t ≠ []) (h : after? sep t = some rest) :
    cut? sep t = some ([], rest) := by
  obtain ⟨c, cs, rfl⟩ := List.exists_cons_of_ne_nil hne
  rw [cut?, h]

theorem cut?_eq_none {sep t : Text} (h : contains sep t = false) : cut? sep t = none := by
  induction t with
  | nil =>
    rw [contains] at h
    rw [cut?, if_neg (by simp [h])]
  | cons c cs ih =>
    rw [← Bool.not_eq_true, contains_iff_infix, List.infix_cons_iff, not_or] at h
    have hnone : after? sep (c :: cs) = none :=
      Option.eq_none_iff_forall_ne_some.2 fun rest hrest =>
        h.1 ⟨rest, (eq_append_of_after? hrest).symm⟩
    have hcs : contains sep cs = false := by
      rw [← Bool.not_eq_true, contains_iff_infix]
      exact h.2
    rw [cut?, hnone, ih hcs]
    rfl

theorem prefix_of_cut? {sep t u v : Text} (h : cut? sep t = some (u, v)) : u <+: t := by
  induction t generalizing u with
  | nil =>
    rw [cut?] at h
    split at h
    · cases h
      exact List.prefix_rfl
    · cases h
  | cons c cs ih =>
    rw [cut?] at h
    split at h
    · cases h
      exact List.nil_prefix
    · obtain ⟨⟨u', v'⟩, hcut, h⟩ := Option.map_eq_some_iff.1 h
      cases h
      exact List.cons_prefix_cons.2 ⟨rfl, ih hcut⟩

theorem before_prefix (sep t : Text) : before sep t <+: t := by
  rw [before]
  cases h : cut? sep t with
  | none => exact List.prefix_rfl
  | some p => exact prefix_of_cut? h

theorem before_eq_self {sep t : Text} (h : contains sep t = false) : before sep t = t := by
  rw [before, cut?_eq_none h]
  rfl

/-- A separator that begins and ends with a character which it does not hold otherwise is found
where it has been put, unless it stands further ahead, up to its first character. -/
theorem cut?_append {a : Char} (body : Text) {s : Text} (hbody : a ∉ body)
    (h : contains (a :: (body ++ [a])) (s ++ [a]) = false) (e : Text) :
    cut? (a :: (body ++ [a])) (s ++ (a :: (body ++ [a]) ++ e)) = some (s, e) := by
  induction s with
  | nil => exact cut?_of_after? (by simp) (after?_append _ e)
  | cons c s ih =>
    rw [← Bool.not_eq_true, contains_iff_infix] at h
    have hrest : contains (a :: (body ++ [a])) (s ++ [a]) = false := by
      rw [← Bool.not_eq_true, contains_iff_infix]
      exact fun hinfix => h (List.infix_cons hinfix)
    have hnone : after? (a :: (body ++ [a])) (c :: (s ++ (a :: (body ++ [a]) ++ e))) = none := by
      refine Option.eq_none_iff_forall_ne_some.2 fun rest hafter => h ?_
      have heq : c :: (s ++ a :: (body ++ a :: e)) = a :: (body ++ a :: rest) := by
        simpa using eq_append_of_after? hafter
      obtain ⟨rfl, heq⟩ := List.cons.inj heq
      -- what stands between the two characters is the body of the separator
      by_cases hmem : c ∈ s
      · obtain ⟨u, v, rfl, hu⟩ := List.eq_append_cons_of_mem hmem
        rw [List.append_assoc, List.cons_append] at heq
        obtain ⟨rfl, -⟩ := eq_of_append_cons_eq hu hbody heq
        exact ⟨[], v ++ [c], by simp⟩
      · obtain ⟨rfl, -⟩ := eq_of_append_cons_eq hmem hbody heq
        exact List.infix_rfl
    rw [List.cons_append, cut?, hnone, ih hrest]
    rfl

/-- A run of blanks goes on into the next text, or else it ends where it ended before. -/
theorem trimLeft_append (t s : Text) :
    trimLeft (t ++ s) = if blank t then trimLeft s else trimLeft t ++ s := by
  induction t with
  | nil => rfl
  | cons c cs ih =>
    cases hc : isBlank c with
    | true => simpa [trimLeft, blank, hc] using ih
    | false => simp [trimLeft, blank, hc]

theorem trimLeft_of_blank {t : Text} (h : blank t = true) : trimLeft t = [] := by
  have := trimLeft_append t []
  rwa [if_pos h, List.append_nil] at this

theorem trimRight_of_blank {t : Text} (h : blank t = true) : trimRight t = [] := by
  have hdrop : t.reverse.dropWhile isBlank = [] :=
    List.dropWhile_eq_nil_iff.2 fun c hc => List.all_eq_true.1 h c (List.mem_reverse.1 hc)
  rw [trimRight, hdrop]
  rfl

theorem exists_trimLeft_eq (t : Text) : ∃ rest, trimLeft t = trim t ++ rest ∧ blank rest = true := by
  refine ⟨((trimLeft t).reverse.takeWhile isBlank).reverse, ?_, ?_⟩
  · rw [trim, trimRight, ← List.reverse_append, List.takeWhile_append_dropWhile,
      List.reverse_reverse]
  · exact List.all_eq_true.2 fun c hc => List.mem_takeWhile_imp (List.mem_reverse.1 hc)

/-- A text without margins is what is left of those that add blanks to it. -/
theorem trim_eq_iff {core : Text} (hne : core ≠ []) (hlast : ∀ c ∈ core.getLast?, isBlank c = false)
    {t : Text} : trim t = core ↔ ∃ rest, trimLeft t = core ++ rest ∧ blank rest = true := by
  constructor
  · rintro rfl
    exact exists_trimLeft_eq t
  · rintro ⟨rest, hleft, hrest⟩
    obtain ⟨init, a, rfl⟩ := List.eq_nil_or_concat core |>.resolve_left hne
    have ha : isBlank a = false := hlast a (by simp)
    rw [trim, hleft, List.concat_eq_append, List.append_assoc, List.singleton_append,
      trimRight_append_cons ha, trimRight_of_blank hrest]

/-- What a text says without its margins is said by every longer text. -/
theorem trim_infix_trim_append (u t v : Text) : trim t <:+: trim (u ++ (t ++ v)) := by
  by_cases hnil : trim t = []
  · rw [hnil]
    exact List.nil_infix
  obtain ⟨rest, hleft, -⟩ := exists_trimLeft_eq t
  obtain ⟨c, cs, hhead⟩ := List.exists_cons_of_ne_nil hnil
  obtain ⟨init, a, hlast⟩ := List.eq_nil_or_concat (trim t) |>.resolve_left hnil
  have hc : isBlank c = false := isBlank_head_trim (by rw [hhead]; rfl)
  have ha : isBlank a = false := isBlank_getLast_trim (by rw [hlast]; simp)
  have ht : t = t.takeWhile isBlank ++ (trim t ++ rest) := by
    rw [← hleft, trimLeft, List.takeWhile_append_dropWhile]
  have hwhole : trimLeft (u ++ (t ++ v)) =
      trimLeft (u ++ t.takeWhile isBlank) ++ (trim t ++ (rest ++ v)) := by
    conv_lhs => rw [ht, hhead]
    rw [hhead, List.cons_append, List.cons_append, ← trimLeft_append_cons hc]
    simp
  refine ⟨trimLeft (u ++ t.takeWhile isBlank), trimRight (rest ++ v), ?_⟩
  rw [hlast, trim, hwhole, hlast]
  simpa using (trimRight_append_cons ha (trimLeft (u ++ t.takeWhile isBlank) ++ init)
    (rest ++ v)).symm

end Text

namespace Recogniser

variable {α : Type} {r r' : Recogniser α} {rest : Text}

/-- What is found first is the first find. -/
theorem search_eq_head?_collect (r : Recogniser α) (before : Option Char) (t : Text) :
    search r before t = (collect r 0 before t).head? := by
  induction t generalizing before with
  | nil => rfl
  | cons c cs ih =>
    rw [search, collect]
    split
    · rfl
    · exact ih (some c)

/-- What is found is found at some place, and nothing ahead of it. -/
theorem exists_append_of_search {before : Option Char} {t : Text} {a : α}
    (h : r.search before t = some a) :
    ∃ u v n, t = u ++ v ∧ v ≠ [] ∧ r (u.getLast?.or before) v = some (a, n) ∧
      ∀ x y, u = x ++ y → y ≠ [] → r (x.getLast?.or before) (y ++ v) = none := by
  induction t generalizing before with
  | nil => simp [search] at h
  | cons c cs ih =>
    rw [search] at h
    split at h
    · next n hfound =>
      obtain rfl := Option.some.inj h
      refine ⟨[], c :: cs, n, rfl, List.cons_ne_nil c cs, hfound, fun x y hxy hy => ?_⟩
      exact absurd (List.append_eq_nil_iff.1 hxy.symm).2 hy
    · next hnone =>
      obtain ⟨u, v, n, rfl, hv, hfound, hahead⟩ := ih h
      refine ⟨c :: u, v, n, rfl, hv, by rwa [getLast?_cons_or], fun x y hxy hy => ?_⟩
      cases x with
      | nil =>
        obtain rfl : c :: u = y := hxy
        exact hnone
      | cons d x =>
        obtain ⟨rfl, rfl⟩ := List.cons.inj hxy
        rw [getLast?_cons_or]
        exact hahead x y rfl hy

/-- Where something is found, the first find stands there or ahead of it. -/
theorem exists_search_append {y : Text} (hne : y ≠ []) (hy : ∀ before, (r before y).isSome = true)
    (before : Option Char) (x : Text) :
    ∃ u w a n, x = u ++ w ∧ r (u.getLast?.or before) (w ++ y) = some (a, n) ∧
      r.search before (x ++ y) = some a := by
  induction x generalizing before with
  | nil =>
    obtain ⟨⟨a, n⟩, hfound⟩ := Option.isSome_iff_exists.1 (hy before)
    obtain ⟨c, cs, rfl⟩ := List.exists_cons_of_ne_nil hne
    exact ⟨[], [], a, n, rfl, hfound, by rw [List.nil_append, search, hfound]⟩
  | cons c x ih =>
    rw [List.cons_append, search]
    cases hc : r before (c :: (x ++ y)) with
    | some find =>
      obtain ⟨a, n⟩ := find
      exact ⟨[], c :: x, a, n, rfl, hc, rfl⟩
    | none =>
      obtain ⟨u, w, a, n, rfl, hfound, hsearch⟩ := ih (some c)
      exact ⟨c :: u, w, a, n, rfl, by rwa [getLast?_cons_or], hsearch⟩

/-- What is found is found at the beginning of some rest of the text. -/
theorem exists_of_search {before : Option Char} {t : Text} {a : α}
    (h : r.search before t = some a) :
    ∃ b u n, u <:+ t ∧ r b u = some (a, n) := by
  obtain ⟨u, v, n, rfl, -, hfound, -⟩ := exists_append_of_search h
  exact ⟨_, v, n, List.suffix_append u v, hfound⟩

/-- Each find is found at the beginning of some rest of the text. -/
theorem exists_of_mem_collect {n : Nat} {before : Option Char} {t : Text} {a : α}
    (h : a ∈ r.collect n before t) : ∃ b u k, u <:+ t ∧ r b u = some (a, k) := by
  induction t generalizing n before with
  | nil => cases n <;> simp [collect] at h
  | cons c cs ih =>
    have hlater {n : Nat} {before : Option Char} (h : a ∈ r.collect n before cs) :
        ∃ b u k, u <:+ c :: cs ∧ r b u = some (a, k) := by
      obtain ⟨b, u, k, hu, hfound⟩ := ih h
      exact ⟨b, u, k, hu.trans (List.suffix_cons c cs), hfound⟩
    cases n with
    | succ n => exact hlater h
    | zero =>
      rw [collect] at h
      split at h
      · next a' k hfound =>
        rcases List.mem_cons.1 h with rfl | h
        · exact ⟨_, _, k, List.suffix_rfl, hfound⟩
        · exact hlater h
      · exact hlater h

/-- Where nothing is found, collecting goes on behind it. -/
theorem collect_append (r : Recogniser α) {before : Option Char} {u t : Text}
    (h : ∀ x y, u = x ++ y → y ≠ [] → r (x.getLast?.or before) (y ++ t) = none) :
    collect r 0 before (u ++ t) = collect r 0 (u.getLast?.or before) t := by
  induction u generalizing before with
  | nil => rfl
  | cons c u ih =>
    have hnone : r before (c :: (u ++ t)) = none := h [] (c :: u) rfl (by simp)
    rw [List.cons_append, collect, hnone, getLast?_cons_or]
    refine ih fun x y hxy hy => ?_
    rw [← getLast?_cons_or c x before]
    exact h (c :: x) y (by rw [hxy]; rfl) hy

/-- Behind a text collecting begins anew, unless a find that begins in the text goes beyond it. -/
theorem collect_append_or (r : Recogniser α) {x : Text} {n : Nat} (hn : n ≤ x.length)
    (before : Option Char) (y : Text) :
    (∃ finds before', r.collect n before (x ++ y) = finds ++ r.collect 0 before' y) ∨
      ∃ u v b a k, x = u ++ v ∧ v ≠ [] ∧ r b (v ++ y) = some (a, k) ∧ v.length < k ∧
        a ∈ r.collect n before (x ++ y) := by
  induction x generalizing n before with
  | nil =>
    obtain rfl : n = 0 := Nat.le_zero.1 hn
    exact Or.inl ⟨[], before, rfl⟩
  | cons c x ih =>
    cases n with
    | succ n =>
      rcases ih (Nat.le_of_succ_le_succ hn) (some c) with hsplit | ⟨u, v, b, a, k, rfl, hfind⟩
      · exact Or.inl hsplit
      · exact Or.inr ⟨c :: u, v, b, a, k, rfl, hfind⟩
    | zero =>
      rw [List.cons_append, collect]
      cases hfound : r before (c :: (x ++ y)) with
      | none =>
        rcases ih (Nat.zero_le _) (some c) with hsplit | ⟨u, v, b, a, k, rfl, hfind⟩
        · exact Or.inl hsplit
        · exact Or.inr ⟨c :: u, v, b, a, k, rfl, hfind⟩
      | some find =>
        obtain ⟨a, k⟩ := find
        by_cases hk : k - 1 ≤ x.length
        · rcases ih hk (some c) with ⟨finds, before', hsplit⟩ | ⟨u, v, b, a', k', rfl, hne, hv⟩
          · exact Or.inl ⟨a :: finds, before', congrArg (a :: ·) hsplit⟩
          · exact Or.inr ⟨c :: u, v, b, a', k', rfl, hne, hv.1, hv.2.1,
              List.mem_cons_of_mem a hv.2.2⟩
        · refine Or.inr ⟨[], c :: x, before, a, k, rfl, List.cons_ne_nil c x, hfound, ?_,
            List.mem_cons_self⟩
          rw [List.length_cons]
          omega

/-- Where nothing is found, searching goes on behind it. -/
theorem search_append (r : Recogniser α) {before : Option Char} {u t : Text}
    (h : ∀ x y, u = x ++ y → y ≠ [] → r (x.getLast?.or before) (y ++ t) = none) :
    search r before (u ++ t) = search r (u.getLast?.or before) t := by
  induction u generalizing before with
  | nil => rfl
  | cons c u ih =>
    have hnone : r before (c :: (u ++ t)) = none := h [] (c :: u) rfl (by simp)
    rw [List.cons_append, search, hnone, getLast?_cons_or]
    refine ih fun x y hxy hy => ?_
    rw [← getLast?_cons_or c x before]
    exact h (c :: x) y (by rw [hxy]; rfl) hy

/-- Whether what is found at the positions of this very text is the same with `rest` behind it. -/
def EndsIn (r : Recogniser α) (t rest : Text) : Prop :=
  ∀ before u, u <:+ t → u ≠ [] → r before (u ++ rest) = r before u

/-- The finds in two texts together are those in the first one and then those in the second. -/
theorem EndsIn.occurrences_append {t : Text} (h : r.EndsIn t rest)
    (hle : ∀ before t a n, r before t = some (a, n) → n ≤ t.length) :
    r.occurrences (t ++ rest) = r.occurrences t ++ r.collect 0 t.getLast? rest := by
  suffices hall : ∀ skip before, skip ≤ t.length → r.collect skip before (t ++ rest) =
      r.collect skip before t ++ r.collect 0 (t.getLast?.or before) rest by
    simpa [occurrences] using hall 0 none (Nat.zero_le _)
  induction t with
  | nil =>
    intro skip before hskip
    obtain rfl : skip = 0 := by simpa using hskip
    rfl
  | cons c cs ih =>
    intro skip before hskip
    have ih := ih fun b u hu => h b u (hu.trans (List.suffix_cons c cs))
    rw [getLast?_cons_or]
    cases skip with
    | succ skip => exact ih skip (some c) (Nat.le_of_succ_le_succ hskip)
    | zero =>
      have hsame : r before (c :: (cs ++ rest)) = r before (c :: cs) :=
        h before (c :: cs) List.suffix_rfl (List.cons_ne_nil c cs)
      rw [List.cons_append, collect, collect, hsame]
      cases hfound : r before (c :: cs) with
      | none => exact ih 0 (some c) (Nat.zero_le _)
      | some find =>
        obtain ⟨a, n⟩ := find
        have hn : n ≤ cs.length + 1 := hle _ _ _ _ hfound
        show a :: r.collect (n - 1) (some c) (cs ++ rest) = _
        rw [ih (n - 1) (some c) (by omega)]
        rfl

/-- Whether what is found at the positions of a text is the same with `rest` behind the text. -/
def EndsBefore (r : Recogniser α) (rest : Text) : Prop :=
  ∀ before t, t ≠ [] → r before (t ++ rest) = r before t

namespace EndsBefore

theorem orElse (h : r.EndsBefore rest) (h' : r'.EndsBefore rest) :
    EndsBefore (fun before t => r before t <|> r' before t) rest := by
  intro before t ht
  simp only [h before t ht, h' before t ht]

theorem search_append (h : r.EndsBefore rest) (before : Option Char) (t : Text) :
    r.search before (t ++ rest) =
      (r.search before t).or (r.search (t.getLast?.or before) rest) := by
  induction t generalizing before with
  | nil => rfl
  | cons c cs ih =>
    have hsame : r before (c :: (cs ++ rest)) = r before (c :: cs) := h before (c :: cs) (by simp)
    rw [List.cons_append, search, search, hsame, getLast?_cons_or]
    cases r before (c :: cs) with
    | none => exact ih (some c)
    | some find => rfl

/-- What is found first in two texts together is found in the first one, or else in the second. -/
theorem first?_append (h : r.EndsBefore rest) (t : Text) :
    r.first? (t ++ rest) = (r.first? t).or (r.search t.getLast? rest) := by
  rw [first?, h.search_append, first?, Option.or_none]

theorem occurrences_append (h : r.EndsBefore rest)
    (hle : ∀ before t a n, r before t = some (a, n) → n ≤ t.length) (t : Text) :
    r.occurrences (t ++ rest) = r.occurrences t ++ r.collect 0 t.getLast? rest :=
  EndsIn.occurrences_append (fun before u _ hu => h before u hu) hle

end EndsBefore

/-- What a recogniser finds is found whatever stands in front, if it does not look there. -/
theorem collect_eq_collect (h : ∀ before before' t, r before t = r before' t) (n : Nat)
    (before before' : Option Char) (t : Text) : r.collect n before t = r.collect n before' t := by
  cases t with
  | nil => cases n <;> rfl
  | cons c cs =>
    cases n with
    | zero => rw [collect, collect, h before before']
    | succ n => rfl

/-- The finds behind another text are all finds, if a recogniser does not look in front. -/
theorem collect_eq_occurrences (h : ∀ before before' t, r before t = r before' t)
    (before : Option Char) (t : Text) : r.collect 0 before t = r.occurrences t :=
  collect_eq_collect h 0 before none t

/-- Collecting goes on behind the characters that belong to a find. -/
theorem collect_eq_occurrences_drop (h : ∀ before before' t, r before t = r before' t) (n : Nat)
    (before : Option Char) (t : Text) : r.collect n before t = r.occurrences (t.drop n) := by
  induction t generalizing n before with
  | nil => cases n <;> rfl
  | cons c t ih =>
    cases n with
    | zero => exact collect_eq_occurrences h before (c :: t)
    | succ n => exact ih n (some c)

/-- Nothing is found in a text if there is nothing to be found at any place of it. -/
theorem collect_eq_nil_iff {before : Option Char} {t : Text} : r.collect 0 before t = [] ↔
    ∀ x y, t = x ++ y → y ≠ [] → r (x.getLast?.or before) y = none := by
  constructor
  · intro hnil x y ht hy
    induction x generalizing before t with
    | nil =>
      obtain ⟨c, cs, rfl⟩ := List.exists_cons_of_ne_nil hy
      rw [ht, List.nil_append, collect] at hnil
      split at hnil
      · cases hnil
      · assumption
    | cons c x ih =>
      rw [ht, List.cons_append, collect] at hnil
      split at hnil
      · cases hnil
      · rw [getLast?_cons_or]
        exact ih hnil rfl
  · intro hnone
    have hpass : ∀ x y, t = x ++ y → y ≠ [] → r (x.getLast?.or before) (y ++ []) = none := by
      intro x y hxy hy
      rw [List.append_nil]
      exact hnone x y hxy hy
    have := collect_append r hpass
    rwa [List.append_nil] at this

/-! ## Passing over a text -/

/-- Whether nothing is found at the positions of a text that has `rest` behind it. -/
def Passes (r : Recogniser α) (u rest : Text) : Prop :=
  ∀ before w, w <:+ u → w ≠ [] → r before (w ++ rest) = none

namespace Passes

variable {u v : Text}

theorem append (hu : r.Passes u (v ++ rest)) (hv : r.Passes v rest) : r.Passes (u ++ v) rest := by
  rintro before w ⟨x, hx⟩ hne
  rcases List.append_eq_append_iff.1 hx with ⟨y, rfl, rfl⟩ | ⟨y, rfl, rfl⟩
  · cases y with
    | nil => exact hv before v List.suffix_rfl hne
    | cons c y =>
      rw [List.append_assoc]
      exact hu before (c :: y) (List.suffix_append x _) (List.cons_ne_nil c y)
  · exact hv before w (List.suffix_append y w) hne

theorem orElse (h : r.Passes u rest) (h' : r'.Passes u rest) :
    Passes (fun before t => r before t <|> r' before t) u rest := by
  intro before w hw hne
  simp only [h before w hw hne, h' before w hw hne]
  rfl

theorem search_append (h : r.Passes u rest) (before : Option Char) :
    r.search before (u ++ rest) = r.search (u.getLast?.or before) rest :=
  Recogniser.search_append r fun x y hxy hy => h _ y ⟨x, hxy.symm⟩ hy

theorem collect_append (h : r.Passes u rest) (before : Option Char) :
    r.collect 0 before (u ++ rest) = r.collect 0 (u.getLast?.or before) rest :=
  Recogniser.collect_append r fun x y hxy hy => h _ y ⟨x, hxy.symm⟩ hy

/-- What is found behind a text that is passed over is found first. -/
theorem first?_append {a : α} {n : Nat} (h : r.Passes u rest) (hne : rest ≠ [])
    (hfound : ∀ before, r before rest = some (a, n)) : r.first? (u ++ rest) = some a := by
  obtain ⟨c, cs, rfl⟩ := List.exists_cons_of_ne_nil hne
  rw [first?, h.search_append, search, hfound]

end Passes

end Recogniser

end ScriptAudit
