import ScriptAudit.Proofs.Redaction.Finds
import ScriptAudit.Proofs.Text.Password

/-!
# Texts that differ in a password

`Veiled p q s t` says that `s` and `t` hold the passwords `p` and `q` behind the same user and are
the same otherwise. A credential that begins in front of the password or at its user takes in the
whole password (`IsCredential.transfer`), so nothing of it is left (`Veiled.mask_eq`).
-/

namespace ScriptAudit.Redaction

/-- The last character of a text is one of a user. -/
def EndsWithUser (t : Text) : Prop := ∃ c, t.getLast? = some c ∧ isUserChar c = true

/-- Two texts that hold the passwords `p` and `q` behind the same user and are the same otherwise. -/
def Veiled (p q s t : Text) : Prop :=
  ∃ front back, EndsWithUser front ∧ s = front ++ (enclosed p ++ back) ∧
    t = front ++ (enclosed q ++ back)

theorem EndsWithUser.ne_nil {t : Text} (h : EndsWithUser t) : t ≠ [] := by
  rintro rfl
  obtain ⟨c, hlast, -⟩ := h
  exact absurd hlast (by simp)

theorem EndsWithUser.append {t : Text} (h : EndsWithUser t) (front : Text) :
    EndsWithUser (front ++ t) := by
  obtain ⟨c, hlast, hc⟩ := h
  exact ⟨c, by rw [List.getLast?_append, hlast]; rfl, hc⟩

theorem EndsWithUser.of_append {t front : Text} (h : EndsWithUser (front ++ t)) (ht : t ≠ []) :
    EndsWithUser t := by
  obtain ⟨c, hlast, hc⟩ := h
  rw [List.getLast?_append_of_ne_nil front ht] at hlast
  exact ⟨c, hlast, hc⟩

theorem EndsWithUser.of_cons {c : Char} {t : Text} (h : EndsWithUser (c :: t)) (ht : t ≠ []) :
    EndsWithUser t := by
  rw [← List.singleton_append] at h
  exact h.of_append ht

theorem EndsWithUser.eq_nil_or {c : Char} {t : Text} (h : EndsWithUser (c :: t)) :
    t = [] ∨ EndsWithUser t := by
  by_cases ht : t = []
  · exact Or.inl ht
  · exact Or.inr (h.of_cons ht)

theorem Veiled.append {p q s t : Text} (h : Veiled p q s t) (front back : Text) :
    Veiled p q (front ++ (s ++ back)) (front ++ (t ++ back)) := by
  obtain ⟨u, v, hu, rfl, rfl⟩ := h
  exact ⟨front ++ u, v ++ back, hu.append front, by simp, by simp⟩

theorem isPasswordChar_of_isPassword {p : Text} (hp : IsPassword p) :
    ∀ c ∈ p, isPasswordChar c = true := fun c hc =>
  isPasswordChar_eq_true.2 ⟨isBlank_eq_false_of_isWord (hp.isWord_of_mem c hc),
    ne_of_isAlphanum (hp.isAlphanum c hc) (by decide), ne_of_isAlphanum (hp.isAlphanum c hc) (by decide)⟩

section

variable {p q : Text}

/-- A credential ends in front of the password, or with it; then there is one for each password. -/
theorem IsCredential.transfer (hp : IsPassword p) (hq : IsPassword q)
    {find user password front rest back : Text} (h : IsCredential find user password)
    (heq : find ++ rest = front ++ (enclosed p ++ back)) :
    (∃ front', front = find ++ front' ∧ rest = front' ++ (enclosed p ++ back)) ∨
      (rest = back ∧ ∃ password', IsCredential (front ++ enclosed q) user password') := by
  obtain ⟨rfl, hne, hisUser, hpasswordne, hispassword⟩ := h
  have hat : '@' ∉ user ++ ':' :: password := by
    intro hmem
    rcases List.mem_append.1 hmem with hmem | hmem
    · exact absurd (hisUser _ hmem) (by decide)
    · exact absurd (hispassword _ ((List.mem_cons.1 hmem).resolve_left (by decide))) (by decide)
  have hp' : '@' ∉ ':' :: p := by
    intro hmem
    exact absurd (isPasswordChar_of_isPassword hp _ ((List.mem_cons.1 hmem).resolve_left (by decide)))
      (by decide)
  have heq' : (front ++ ':' :: p) ++ '@' :: back = (user ++ ':' :: password) ++ '@' :: rest := by
    simpa [enclosed] using heq.symm
  rcases Text.append_eq_append_cons heq' with ⟨right, hright, rfl⟩ | ⟨left, hleft, hback⟩
  · -- the at sign of the credential stands in front of the password
    left
    rcases Text.append_eq_append_cons hright with ⟨right', rfl, rfl⟩ | ⟨left, -, hleft⟩
    · exact ⟨right', by simp, by simp [enclosed]⟩
    · exact absurd (hleft ▸ by simp) hp'
  · right
    cases left with
    | cons d left =>
      obtain ⟨rfl, -⟩ := List.cons.inj hback
      exact absurd (hleft ▸ by simp) hat
    | nil =>
      rw [List.append_nil] at hleft
      refine ⟨((List.cons.inj hback).2).symm, ?_⟩
      rcases Text.append_eq_append_cons hleft with ⟨right, rfl, -⟩ | ⟨left, rfl, hcolon⟩
      · exact absurd (hisUser ':' (by simp)) (by decide)
      · cases left with
        | nil =>
          exact ⟨q, by rw [List.append_nil]; rfl, hne, hisUser, hq.ne_nil,
            isPasswordChar_of_isPassword hq⟩
        | cons d left =>
          obtain ⟨rfl, rfl⟩ := List.cons.inj hcolon
          refine ⟨left ++ ':' :: q, by simp [enclosed], hne, hisUser, by simp, fun c hc => ?_⟩
          rcases List.mem_append.1 hc with hc | hc
          · exact hispassword c (List.mem_append_left _ hc)
          · rcases List.mem_cons.1 hc with rfl | hc
            · decide
            · exact isPasswordChar_of_isPassword hq c hc

theorem IsCredential.getLast? {find user password : Text} (h : IsCredential find user password) :
    find.getLast? = some '@' := by
  rw [h.eq, ← List.cons_append, ← List.append_assoc, List.getLast?_append]
  rfl

/-- Masking credentials leaves the same for each password. -/
theorem replaces_userPassword (hp : IsPassword p) (hq : IsPassword q) {before : Option Char}
    {front back out : Text} (hfront : EndsWithUser front)
    (h : Recogniser.Replaces userPassword before (front ++ (enclosed p ++ back)) out) :
    Recogniser.Replaces userPassword before (front ++ (enclosed q ++ back)) out := by
  generalize htext : front ++ (enclosed p ++ back) = t at h
  induction h generalizing front with
  | done => simp [enclosed] at htext
  | @keep before c cs out hnone hrest ih =>
    -- nothing is found here for the other password either
    have hnone' : userPassword before (front ++ (enclosed q ++ back)) = none := by
      cases hfound : userPassword before (front ++ (enclosed q ++ back)) with
      | none => rfl
      | some result =>
        obtain ⟨find, user, password, rest, heq, hfind, -, -⟩ := userPassword_eq_some hfound
        rcases hfind.transfer hq hp heq.symm with ⟨front', rfl, rfl⟩ | ⟨rfl, password', hfind'⟩
        · rw [← htext, List.append_assoc, userPassword_append hfind] at hnone
          cases hnone
        · rw [← htext, ← List.append_assoc, userPassword_append hfind'] at hnone
          cases hnone
    obtain ⟨d, front, rfl⟩ := List.exists_cons_of_ne_nil hfront.ne_nil
    obtain ⟨rfl, rfl⟩ := List.cons.inj htext
    refine .keep hnone' (ih (hfront.of_cons ?_) rfl)
    -- a single user character in front of the password would have been found with it
    rintro rfl
    obtain ⟨d', hd, hd'⟩ := hfront
    obtain rfl : d = d' := Option.some.inj hd
    have hfind : IsCredential ([d] ++ enclosed p) [d] p :=
      ⟨rfl, by simp, by simpa using hd', hp.ne_nil, isPasswordChar_of_isPassword hp⟩
    have hfound := userPassword_append hfind before back
    rw [List.append_assoc] at hfound
    exact absurd (hfound.symm.trans hnone) (by simp)
  | @put before c find t new out hfound hrest ih =>
    obtain ⟨find', user, password, rest, heq, hfind, rfl, hlength⟩ := userPassword_eq_some hfound
    obtain ⟨rfl, rfl⟩ := List.append_inj heq hlength
    rcases hfind.transfer hp hq htext.symm with ⟨front', rfl, rfl⟩ | ⟨rfl, password', hfind'⟩
    · have hne : front' ≠ [] := by
        rintro rfl
        obtain ⟨d, hd, hd'⟩ := hfront
        rw [List.append_nil, hfind.getLast?] at hd
        obtain rfl := Option.some.inj hd
        exact absurd hd' (by decide)
      rw [List.append_assoc]
      exact .put (userPassword_append hfind _ _) (ih (hfront.of_append hne) rfl)
    · obtain ⟨d, front, rfl⟩ := List.exists_cons_of_ne_nil hfront.ne_nil
      rw [hfind.getLast?, ← hfind'.getLast?] at hrest
      rw [← List.append_assoc]
      exact .put (userPassword_append hfind' _ _) hrest

/-- Texts that differ in a password are the same when they are masked. -/
theorem Veiled.mask_eq (hp : IsPassword p) (hq : IsPassword q) {s t : Text} (h : Veiled p q s t) :
    mask s = mask t := by
  obtain ⟨front, back, hfront, rfl, rfl⟩ := h
  have hreplaces := replaces_userPassword hp hq hfront
    (Recogniser.replaces_substitute progresses_userPassword none (front ++ (enclosed p ++ back)))
  have heq : userPassword.replaced (front ++ (enclosed p ++ back)) =
      userPassword.replaced (front ++ (enclosed q ++ back)) := hreplaces.eq_substitute
  rw [mask, mask, heq]

end

end ScriptAudit.Redaction
