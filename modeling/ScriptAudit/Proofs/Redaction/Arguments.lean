import ScriptAudit.Proofs.Text.Keyword
import ScriptAudit.Proofs.Text.Scan
import ScriptAudit.Proofs.Text.Search
import ScriptAudit.Run.Runner

/-!
# The password among the arguments

The arguments of the interpreter are masked before they are told to anyone. What is told should not
depend on the password. It does not as long as the password is a single line; behind a line feed it
goes on in plain view.

* `Arguments.addressPassword_eq_some` — the texts that are found to be passwords of addresses.
* `Arguments.exists_of_replaces_newline` — masking keeps the line feeds of a text, and something
  behind each one that has something behind it.
* `Arguments.mask_password` — what is told of a password.
* `Runner.map_mask_arguments_eq_iff` — the passwords of which the same is told.
-/

namespace ScriptAudit

namespace Arguments

open Recogniser (Replaces)

/-! ## Passwords of addresses -/

/-- The parts of an address that is found to have a password, and what is put in its place. -/
theorem addressPassword_eq_some {before : Option Char} {t new : Text} {n : Nat}
    (h : addressPassword before t = some (new, n)) :
    ∃ user password rest, t = "://".toList ++ (user ++ ':' :: (password ++ ['@'])) ++ rest ∧
      (∀ c ∈ user, isBlank c = false) ∧ (∀ c ∈ password, isBlank c = false) ∧
      new = "://".toList ++ (user ++ ':' :: (asterisks ++ ['@'])) ∧
      n = ("://".toList ++ (user ++ ':' :: (password ++ ['@']))).length := by
  rw [addressPassword] at h
  obtain ⟨tail, htail, h⟩ := Option.bind_eq_some_iff.1 h
  obtain ⟨afterUser, hafterUser, h⟩ := Option.bind_eq_some_iff.1 h
  obtain ⟨rest, hrest, h⟩ := Option.bind_eq_some_iff.1 h
  obtain ⟨-, h⟩ := Option.ite_none_left_eq_some.1 h
  obtain ⟨rfl, rfl⟩ := Prod.mk.inj (Option.some.inj h)
  generalize huser : (tail.takeWhile fun c => c ≠ '/' && !isBlank c && c ≠ ':' && c ≠ '@') = user
    at hafterUser hrest ⊢
  generalize hpassword : (afterUser.takeWhile fun c => c ≠ '/' && !isBlank c && c ≠ '@') = password
    at hrest ⊢
  have hsplitUser : user ++ tail.drop user.length = tail :=
    List.prefix_iff_eq_append.1 (huser ▸ List.takeWhile_prefix _)
  have hsplitPassword : password ++ afterUser.drop password.length = afterUser :=
    List.prefix_iff_eq_append.1 (hpassword ▸ List.takeWhile_prefix _)
  refine ⟨user, password, rest, ?_, ?_, ?_, by simp, by simp; omega⟩
  · rw [Text.eq_append_of_after? htail, ← hsplitUser, Text.eq_append_of_after? hafterUser,
      ← hsplitPassword, Text.eq_append_of_after? hrest]
    simp
  · intro c hc
    have := List.mem_takeWhile_imp (huser ▸ hc)
    simp only [Bool.and_eq_true, Bool.not_eq_true'] at this
    exact this.1.1.2
  · intro c hc
    have := List.mem_takeWhile_imp (hpassword ▸ hc)
    simp only [Bool.and_eq_true, Bool.not_eq_true'] at this
    exact this.1.2

theorem progresses_addressPassword : addressPassword.Progresses := by
  intro before t new n h
  obtain ⟨user, password, rest, rfl, -, -, -, rfl⟩ := addressPassword_eq_some h
  constructor
  · simp
  · exact (List.prefix_append _ rest).length_le

theorem begins_addressPassword : addressPassword.Begins fun _ c => c = ':' := by
  intro before t new n h
  obtain ⟨user, password, rest, rfl, -, -, rfl, -⟩ := addressPassword_eq_some h
  exact ⟨':', rfl, rfl, rfl⟩

/-- No line feed is hidden together with a password. -/
theorem newline_notMem_of_addressPassword {before : Option Char} {find t new : Text}
    (h : addressPassword before (find ++ t) = some (new, find.length)) : '\n' ∉ find := by
  obtain ⟨user, password, rest, heq, huser, hpassword, -, hlength⟩ := addressPassword_eq_some h
  obtain ⟨rfl, -⟩ := List.append_inj heq hlength
  intro hmem
  simp only [List.mem_append, List.mem_cons, List.not_mem_nil, or_false] at hmem
  rcases hmem with hmem | hmem | hmem | hmem | hmem
  · exact absurd hmem (by decide)
  · exact absurd (huser _ hmem) (by decide)
  · exact absurd hmem (by decide)
  · exact absurd (hpassword _ hmem) (by decide)
  · exact absurd hmem (by decide)

/-- What stands in front of a text does not matter. -/
theorem replaces_replaced (before : Option Char) (t : Text) :
    Replaces addressPassword before t (addressPassword.replaced t) := by
  have hsame : addressPassword.replaced t = addressPassword.substitute 0 before t := by
    cases t <;> rfl
  rw [hsame]
  exact Recogniser.replaces_substitute progresses_addressPassword before t

/-- A text without colons stays in front of what is masked. -/
theorem replaced_append {front : Text} (h : ':' ∉ front) (t : Text) :
    addressPassword.replaced (front ++ t) = front ++ addressPassword.replaced t := by
  have hfront : ∀ x c y, front = x ++ c :: y → ¬ c = ':' := by
    rintro x c y rfl rfl
    exact h (by simp)
  obtain ⟨out, hout, hrest⟩ :=
    (replaces_replaced none (front ++ t)).kept begins_addressPassword hfront
  rw [hout, hrest.eq_substitute, (replaces_replaced _ t).eq_substitute]

/-- Masking keeps a line feed, and masks what stands behind it by itself. -/
theorem exists_of_replaces_newline {before : Option Char} {front back out : Text}
    (h : Replaces addressPassword before (front ++ '\n' :: back) out) :
    ∃ front' back', out = front' ++ '\n' :: back' ∧
      Replaces addressPassword (some '\n') back back' := by
  generalize ht : front ++ '\n' :: back = t at h
  induction h generalizing front with
  | done => simp at ht
  | @keep before c cs out hnone hrest ih =>
    cases front with
    | nil =>
      obtain ⟨rfl, rfl⟩ := List.cons.inj ht
      exact ⟨[], out, rfl, hrest⟩
    | cons d front =>
      obtain ⟨rfl, rfl⟩ := List.cons.inj ht
      obtain ⟨front', back', rfl, hback⟩ := ih rfl
      exact ⟨d :: front', back', rfl, hback⟩
  | @put before c find t new out hfound hrest ih =>
    have hfeed : '\n' ∉ c :: find := newline_notMem_of_addressPassword hfound
    rcases Text.append_eq_append_cons ht.symm with ⟨right, hfind, -⟩ | ⟨left, -, rfl⟩
    · exact absurd (by simp [hfind]) hfeed
    · obtain ⟨front', back', rfl, hback⟩ := ih rfl
      exact ⟨new ++ front', back', by simp, hback⟩

/-! ## What is told of a password -/

/-- Where the line feeds of a text stand: there is none, there is a single one at the end, or the
text goes on behind one. -/
theorem newline_cases (p : Text) :
    '\n' ∉ p ∨ (∃ line, p = line ++ ['\n'] ∧ '\n' ∉ line) ∨
      ∃ line rest, p = line ++ '\n' :: rest ∧ '\n' ∉ line ∧ rest ≠ [] := by
  by_cases h : '\n' ∈ p
  · obtain ⟨line, rest, rfl, hline⟩ := List.eq_append_cons_of_mem h
    by_cases hrest : rest = []
    · exact Or.inr (Or.inl ⟨line, by rw [hrest], hline⟩)
    · exact Or.inr (Or.inr ⟨line, rest, rfl, hline, hrest⟩)
  · exact Or.inl h

/-- What is told of a password. -/
def told (p : Text) : Text :=
  if '\n' ∈ p.dropLast then addressPassword.replaced p
  else if '\n' ∈ p then asterisks ++ ['\n']
  else asterisks

variable {line rest : Text}

theorem told_of_notMem (h : '\n' ∉ line) : told line = asterisks := by
  unfold told
  rw [if_neg fun hmem => h (List.dropLast_subset _ hmem), if_neg h]

theorem told_append_newline (h : '\n' ∉ line) : told (line ++ ['\n']) = asterisks ++ ['\n'] := by
  unfold told
  rw [List.dropLast_concat, if_neg h, if_pos (by simp)]

theorem told_append_newline_append (hrest : rest ≠ []) :
    told (line ++ '\n' :: rest) = addressPassword.replaced (line ++ '\n' :: rest) := by
  unfold told
  rw [List.dropLast_append_of_ne_nil (by simp), List.dropLast_cons_of_ne_nil hrest,
    if_pos (by simp)]

/-- **What is told of a password**: asterisks, unless it goes on behind a line feed. Then only the
passwords of addresses in it are hidden. -/
theorem mask_password (p : Text) :
    mask ("password=".toList ++ p) = "password=".toList ++ told p := by
  have htake (s : Text) :
      ("password=".toList ++ s).take (("password=".toList ++ s).length - s.length) =
        "password=".toList := by
    rw [List.length_append, Nat.add_sub_cancel, List.take_left]
  rw [mask, maskPassword, Text.afterKeyword?_self_append]
  dsimp only
  rw [htake]
  rcases newline_cases p with h | ⟨line, rfl, h⟩ | ⟨line, rest, rfl, h, hrest⟩
  · have hending : p.dropWhile (· ≠ '\n') = [] :=
      List.dropWhile_eq_nil_iff.2 (Text.forall_ne_of_notMem h)
    rw [hending, if_pos (by simp), told_of_notMem h]
    decide
  · rw [Text.dropWhile_ne_append_cons h, if_pos (by simp), told_append_newline h]
    decide
  · have hlong : ¬ ('\n' :: rest).length ≤ 1 := by
      simpa using hrest
    rw [Text.dropWhile_ne_append_cons h, if_neg hlong, told_append_newline_append hrest]
    exact replaced_append (by decide) _

/-- A password that goes on behind a line feed is told with one that something stands behind. -/
theorem newline_mem_dropLast_told (hrest : rest ≠ []) :
    '\n' ∈ (told (line ++ '\n' :: rest)).dropLast := by
  obtain ⟨front, back, hout, hback⟩ :=
    exists_of_replaces_newline (replaces_replaced none (line ++ '\n' :: rest))
  have hne : back ≠ [] := by
    intro hnil
    have hhead := hback.head?_eq begins_addressPassword
    rw [hnil] at hhead
    exact hrest (List.head?_eq_none_iff.1 hhead.symm)
  rw [told_append_newline_append hrest, hout, List.dropLast_append_of_ne_nil (by simp),
    List.dropLast_cons_of_ne_nil hne]
  simp

/-- Two passwords of which the same is told. -/
inductive ToldAlike : Text → Text → Prop
  /-- Neither holds a line feed. -/
  | line {p q : Text} (hp : '\n' ∉ p) (hq : '\n' ∉ q) : ToldAlike p q
  /-- Both hold a single one, at the end. -/
  | feed {p q : Text} (hp : '\n' ∉ p) (hq : '\n' ∉ q) : ToldAlike (p ++ ['\n']) (q ++ ['\n'])
  /-- Both go on behind a line feed, and differ in nothing but passwords of addresses. -/
  | lines {p q : Text} (hp : '\n' ∈ p.dropLast) (hq : '\n' ∈ q.dropLast)
      (h : addressPassword.replaced p = addressPassword.replaced q) : ToldAlike p q

theorem told_eq_iff (p q : Text) : told p = told q ↔ ToldAlike p q := by
  constructor
  · intro h
    rcases newline_cases p with hp | ⟨p, rfl, hp⟩ | ⟨p, rest, rfl, hp, hrest⟩
    · rw [told_of_notMem hp] at h
      rcases newline_cases q with hq | ⟨q, rfl, hq⟩ | ⟨q, rest, rfl, hq, hrest⟩
      · exact .line hp hq
      · rw [told_append_newline hq] at h
        exact absurd h (by decide)
      · exact absurd (h ▸ newline_mem_dropLast_told hrest) (by decide)
    · rw [told_append_newline hp] at h
      rcases newline_cases q with hq | ⟨q, rfl, hq⟩ | ⟨q, rest, rfl, hq, hrest⟩
      · rw [told_of_notMem hq] at h
        exact absurd h (by decide)
      · exact .feed hp hq
      · exact absurd (h ▸ newline_mem_dropLast_told hrest) (by decide)
    · have hmem : '\n' ∈ (told (p ++ '\n' :: rest)).dropLast := newline_mem_dropLast_told hrest
      rw [h] at hmem
      rcases newline_cases q with hq | ⟨q, rfl, hq⟩ | ⟨q, rest', rfl, hq, hrest'⟩
      · rw [told_of_notMem hq] at hmem
        exact absurd hmem (by decide)
      · rw [told_append_newline hq] at hmem
        exact absurd hmem (by decide)
      · rw [told_append_newline_append hrest, told_append_newline_append hrest'] at h
        have hdropLast {line rest : Text} (hrest : rest ≠ []) :
            '\n' ∈ (line ++ '\n' :: rest).dropLast := by
          rw [List.dropLast_append_of_ne_nil (by simp), List.dropLast_cons_of_ne_nil hrest]
          simp
        exact .lines (hdropLast hrest) (hdropLast hrest') h
  · rintro (⟨hp, hq⟩ | ⟨hp, hq⟩ | ⟨hp, hq, h⟩)
    · rw [told_of_notMem hp, told_of_notMem hq]
    · rw [told_append_newline hp, told_append_newline hq]
    · unfold told
      rw [if_pos hp, if_pos hq, h]

end Arguments

/-! ## Runners -/

namespace Runner

open Arguments (ToldAlike)

/-- Arguments that differ in the password. -/
theorem map_mask_eq_iff (front back : List Text) (p q : Text) :
    ((front ++ ("password=".toList ++ p) :: back).map Arguments.mask =
      (front ++ ("password=".toList ++ q) :: back).map Arguments.mask) ↔ ToldAlike p q := by
  rw [List.map_append, List.map_cons, Arguments.mask_password, List.map_append, List.map_cons,
    Arguments.mask_password, ← Arguments.told_eq_iff]
  constructor
  · intro h
    exact List.append_cancel_left (List.cons.inj (List.append_cancel_left h)).1
  · intro h
    rw [h]

/-- **What is told of the arguments hardly depends on the password**, be it the one of the runner or
the one that a test asks for: the same is told of two passwords if both are single lines, if both
are single lines with a line feed at the end, or if both go on behind a line feed and differ in
passwords of addresses only. Of any other two it is not. -/
theorem map_mask_arguments_eq_iff (r : Runner) (t : TestRun) (fileName p q : Text) :
    (((arguments { r with password := p } { t with password := none } fileName).map Arguments.mask =
      (arguments { r with password := q } { t with password := none } fileName).map Arguments.mask)
        ↔ ToldAlike p q) ∧
    (((arguments r { t with password := some p } fileName).map Arguments.mask =
      (arguments r { t with password := some q } fileName).map Arguments.mask) ↔
        ToldAlike p q) :=
  ⟨map_mask_eq_iff [_, _] _ p q, map_mask_eq_iff [_, _] _ p q⟩

/-- Behind a line feed a password is told as it is. -/
theorem map_mask_arguments_ne :
    (arguments { password := "sec\nret".toList } { file := [] } []).map Arguments.mask ≠
      (arguments { password := "secret".toList } { file := [] } []).map Arguments.mask ∧
    "password=sec\nret".toList ∈
      (arguments { password := "sec\nret".toList } { file := [] } []).map Arguments.mask := by
  decide +kernel

end Runner

end ScriptAudit
