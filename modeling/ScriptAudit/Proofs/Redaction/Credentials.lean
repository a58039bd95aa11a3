import ScriptAudit.Proofs.Redaction.Finds

/-!
# Passwords before an at sign

Masking credentials leaves no user, colon and password before an at sign, unless the password is the
asterisks. Masking parameters and arguments afterwards may only change this where it puts a
parameter between the colon and the at sign (`CredentialsMasked`). Main statement:
`ends_of_mask_eq`, together with the two ways in which a password is left: a colon without a user,
and a parameter whose mask removes a slash.
-/

namespace ScriptAudit.Redaction

/-- A parameter that holds a secret stands in the text. -/
def ShowsParameter (t : Text) : Prop :=
  ∃ front mark name after, t = front ++ mark :: (name ++ '=' :: after) ∧
    (mark = '?' ∨ mark = '&') ∧ IsSecretName name

/-- A user, a colon and some text before an at sign, of the characters of a password and without a
parameter in it, end with a colon and the asterisks. -/
def CredentialsMasked (t : Text) : Prop :=
  ∀ front c password back, t = front ++ c :: ':' :: (password ++ '@' :: back) →
    isUserChar c = true → password ≠ [] → (∀ d ∈ password, isPasswordChar d = true) →
      ¬ ShowsParameter password → ∃ z, ':' :: password = z ++ ':' :: asterisks

theorem CredentialsMasked.of_append {u v : Text} (h : CredentialsMasked (u ++ v)) :
    CredentialsMasked v := by
  rintro front c password back rfl
  exact h (u ++ front) c password back (by simp)

theorem at_notMem_of_isPasswordChar {t : Text} (h : ∀ d ∈ t, isPasswordChar d = true) : '@' ∉ t :=
  fun hmem => absurd (h _ hmem) (by decide)

/-! ## Masking credentials -/

/-- What masking credentials leaves before an at sign was there before, or is a mask. -/
theorem password_of_replaces {before : Option Char} {t out : Text}
    (h : Recogniser.Replaces userPassword before t out) {password back : Text}
    (hout : out = password ++ '@' :: back) (hat : '@' ∉ password) :
    (∃ s, t = password ++ '@' :: s) ∨ ∃ z, password = z ++ ':' :: asterisks := by
  induction h generalizing password with
  | done => simp at hout
  | @keep before c cs out hnone hrest ih =>
    cases password with
    | nil =>
      obtain ⟨rfl, rfl⟩ := List.cons.inj hout
      exact Or.inl ⟨cs, rfl⟩
    | cons d password =>
      obtain ⟨rfl, rfl⟩ := List.cons.inj hout
      rcases ih rfl (fun hmem => hat (List.mem_cons_of_mem _ hmem)) with ⟨s, rfl⟩ | ⟨z, rfl⟩
      · exact Or.inl ⟨s, rfl⟩
      · exact Or.inr ⟨c :: z, rfl⟩
  | @put before c find t new out hfound hrest ih =>
    obtain ⟨find', user, secret, rest, -, hfind, rfl, -⟩ := userPassword_eq_some hfound
    have huser : '@' ∉ user ++ ':' :: asterisks := by
      intro hmem
      rcases List.mem_append.1 hmem with hmem | hmem
      · exact absurd (hfind.isUserChar_user _ hmem) (by decide)
      · exact absurd hmem (by decide)
    rw [maskedCredential, ← List.cons_append, ← List.append_assoc, List.append_assoc] at hout
    exact Or.inr ⟨user, (Text.eq_of_append_cons_eq huser hat hout).1.symm⟩

/-- The only colon of a text is found again. -/
theorem eq_of_colon {x y s t : Text} (hx : ':' ∉ x) (hs : ':' ∉ s)
    (h : x ++ ':' :: s = y ++ ':' :: t) : x = y ∧ s = t := by
  rcases Text.append_eq_append_cons h with ⟨right, rfl, -⟩ | ⟨left, rfl, hleft⟩
  · exact absurd (by simp) hx
  · cases left with
    | nil => exact ⟨by simp, (List.cons.inj hleft).2⟩
    | cons d left => exact absurd ((List.cons.inj hleft).2 ▸ by simp) hs

theorem credentialsMasked_of_replaces {before : Option Char} {t out : Text}
    (h : Recogniser.Replaces userPassword before t out) : CredentialsMasked out := by
  induction h with
  | done => rintro (_ | ⟨_, _⟩) c password back heq <;> cases heq
  | @keep before c cs out hnone hrest ih =>
    intro front d password back heq hd hne hpassword hshows
    cases front with
    | cons e front => exact ih front d password back (List.cons.inj heq).2 hd hne hpassword hshows
    | nil =>
      obtain ⟨rfl, rfl⟩ := List.cons.inj heq
      have hat := at_notMem_of_isPasswordChar hpassword
      obtain ⟨s, rfl, hs⟩ := hrest.copied_cons begins_userPassword (by decide)
      rcases password_of_replaces hs rfl hat with ⟨s, rfl⟩ | ⟨z, rfl⟩
      · -- here the credential would have been found
        have hfind : IsCredential ([c] ++ ':' :: (password ++ ['@'])) [c] password :=
          ⟨rfl, by simp, by simpa using hd, hne, hpassword⟩
        have hfound := userPassword_append hfind before s
        rw [show [c] ++ ':' :: (password ++ ['@']) ++ s = c :: ':' :: (password ++ '@' :: s) by simp,
          hnone] at hfound
        cases hfound
      · exact ⟨':' :: z, rfl⟩
  | @put before c find t new out hfound hrest ih =>
    obtain ⟨find', user, secret, rest, -, hfind, rfl, -⟩ := userPassword_eq_some hfound
    intro front d password back hout hd hne hpassword hshows
    rcases Text.append_eq_append_cons hout with ⟨right, hnew, hright⟩ | ⟨left, -, hleft⟩
    · cases right with
      | nil =>
        -- a credential ends with an at sign, which is no user
        have hlast := congrArg List.getLast? hnew
        rw [maskedCredential, List.getLast?_append, List.getLast?_append] at hlast
        obtain rfl : '@' = d := Option.some.inj hlast
        exact absurd hd (by decide)
      | cons e right =>
        obtain ⟨rfl, -⟩ := List.cons.inj hright
        rw [maskedCredential, List.append_cons front] at hnew
        obtain ⟨-, rfl⟩ := eq_of_colon
          (fun hmem => absurd (hfind.isUserChar_user _ hmem) (by decide)) (by decide) hnew
        have hsame : password ++ '@' :: back = asterisks ++ '@' :: out := (List.cons.inj hright).2
        obtain ⟨rfl, -⟩ := Text.eq_of_append_cons_eq (at_notMem_of_isPasswordChar hpassword)
          (by decide) hsame
        exact ⟨[], rfl⟩
    · exact ih left d password back hleft hd hne hpassword hshows

/-! ## Masking parameters and arguments -/

/-- What a recogniser puts in place of a find holds neither a colon nor an at sign. What follows a
find ends its value, and only behind a parameter it need not be blank. -/
def HidesValues (r : Recogniser Text) : Prop :=
  ∀ before find t new, r before (find ++ t) = some (new, find.length) →
    ':' ∉ new ∧ '@' ∉ new ∧ (∀ c ∈ t.head?, EndsValue c) ∧
      (ShowsParameter new ∨ ∀ c ∈ t.head?, isBlank c = true)

theorem colon_at_notMem_of_isSecretName {name : Text} (h : IsSecretName name) :
    ':' ∉ name ++ '=' :: asterisks ∧ '@' ∉ name ++ '=' :: asterisks := by
  have hword := isWord_of_isSecretName h
  constructor
  · intro hmem
    rcases List.mem_append.1 hmem with hmem | hmem
    · exact absurd (hword _ hmem) (by decide)
    · exact absurd hmem (by decide)
  · intro hmem
    rcases List.mem_append.1 hmem with hmem | hmem
    · exact absurd (hword _ hmem) (by decide)
    · exact absurd hmem (by decide)

theorem hidesValues_parameter : HidesValues parameter := by
  intro before find t new h
  obtain ⟨find', mark, name, value, rest, heq, hfind, hends, rfl, hlength⟩ := parameter_eq_some h
  obtain ⟨-, rfl⟩ := List.append_inj heq hlength
  obtain ⟨hcolon, hat⟩ := colon_at_notMem_of_isSecretName hfind.isSecretName
  have hmark : mark ≠ ':' ∧ mark ≠ '@' := by
    rcases hfind.mark_eq with rfl | rfl <;> decide
  refine ⟨?_, ?_, hends, Or.inl ⟨[], mark, name, asterisks, rfl, hfind.mark_eq, hfind.isSecretName⟩⟩
  · exact fun hmem => hcolon ((List.mem_cons.1 hmem).resolve_left hmark.1.symm)
  · exact fun hmem => hat ((List.mem_cons.1 hmem).resolve_left hmark.2.symm)

theorem hidesValues_argument : HidesValues argument := by
  intro before find t new h
  obtain ⟨-, find', word, value, rest, heq, hfind, hends, rfl, hlength⟩ := argument_eq_some h
  obtain ⟨-, rfl⟩ := List.append_inj heq hlength
  obtain ⟨hcolon, hat⟩ :=
    colon_at_notMem_of_isSecretName (isSecretName_of_isPasswordWord hfind.isPasswordWord)
  exact ⟨hcolon, hat, fun c hc => Or.inr (hends c hc), Or.inr hends⟩

section

variable {r : Recogniser Text} {p : Option Char → Char → Prop}

/-- Text before an at sign in which no parameter stands was there before its values were hidden. -/
theorem copied_password (hr : r.Begins p) (hhides : HidesValues r) {before : Option Char}
    {t out : Text} (h : Recogniser.Replaces r before t out) {password back : Text}
    (hout : out = password ++ '@' :: back) (hpassword : ∀ d ∈ password, isPasswordChar d = true)
    (hshows : ¬ ShowsParameter password) : ∃ s, t = password ++ '@' :: s := by
  induction h generalizing password with
  | done => simp at hout
  | @keep before c cs out hnone hrest ih =>
    cases password with
    | nil =>
      obtain ⟨rfl, rfl⟩ := List.cons.inj hout
      exact ⟨cs, rfl⟩
    | cons d password =>
      obtain ⟨rfl, rfl⟩ := List.cons.inj hout
      obtain ⟨s, rfl⟩ := ih rfl (fun d hd => hpassword d (List.mem_cons_of_mem c hd)) (by
        rintro ⟨front, mark, name, after, rfl, hshown⟩
        exact hshows ⟨c :: front, mark, name, after, rfl, hshown⟩)
      exact ⟨s, rfl⟩
  | @put before c find t new out hfound hrest ih =>
    obtain ⟨-, hat, -, hends⟩ := hhides before (c :: find) t new hfound
    rcases Text.append_eq_append_cons hout with ⟨right, rfl, -⟩ | ⟨left, rfl, hleft⟩
    · exact absurd (by simp) hat
    · rcases hends with ⟨front, mark, name, after, rfl, hshown⟩ | hblank
      · exact absurd ⟨front, mark, name, after ++ left, by simp, hshown⟩ hshows
      · -- what follows the find is blank, but neither the password nor the at sign is
        rw [← hrest.head?_eq hr, hleft] at hblank
        cases left with
        | nil => exact absurd (hblank '@' rfl) (by decide)
        | cons d left =>
          have hd := (isPasswordChar_eq_true.1 (hpassword d (by simp))).1
          exact absurd (hblank d rfl) (by simp [hd])

/-- Hiding values keeps the masks of credentials. -/
theorem CredentialsMasked.of_replaces (hr : r.Begins p) (hcolon : ∀ before, ¬ p before ':')
    (hhides : HidesValues r) {before : Option Char} {t out : Text}
    (h : Recogniser.Replaces r before t out) (ht : CredentialsMasked t) : CredentialsMasked out := by
  induction h with
  | done => exact ht
  | @keep before c cs out hnone hrest ih =>
    intro front d password back heq hd hne hpassword hshows
    cases front with
    | cons e front =>
      exact ih (ht.of_append (u := [c])) front d password back (List.cons.inj heq).2 hd hne hpassword
        hshows
    | nil =>
      obtain ⟨rfl, rfl⟩ := List.cons.inj heq
      obtain ⟨s, rfl, hs⟩ := hrest.copied_cons hr (hcolon _)
      obtain ⟨s, rfl⟩ := copied_password hr hhides hs rfl hpassword hshows
      exact ht [] c password s rfl hd hne hpassword hshows
  | @put before c find t new out hfound hrest ih =>
    obtain ⟨hnotMem, -, hends, -⟩ := hhides before (c :: find) t new hfound
    intro front d password back hout hd hne hpassword hshows
    rcases Text.append_eq_append_cons hout with ⟨right, rfl, hright⟩ | ⟨left, -, hleft⟩
    · cases right with
      | nil =>
        rw [← hrest.head?_eq hr, ← List.nil_append out, ← hright] at hends
        exact absurd (hends ':' rfl) (by decide)
      | cons e right =>
        obtain ⟨rfl, -⟩ := List.cons.inj hright
        exact absurd (by simp) hnotMem
    · exact ih ht.of_append left d password back hleft hd hne hpassword hshows

end

/-! ## Masked texts -/

theorem credentialsMasked_mask (t : Text) : CredentialsMasked (mask t) := by
  have huser := credentialsMasked_of_replaces
    (Recogniser.replaces_substitute progresses_userPassword none t)
  have hparameter := huser.of_replaces begins_parameter (fun _ => by decide) hidesValues_parameter
    (Recogniser.replaces_substitute progresses_parameter none _)
  exact hparameter.of_replaces begins_argument (fun _ h => absurd h.2 (by decide))
    hidesValues_argument (Recogniser.replaces_substitute progresses_argument none _)

/-- **A password behind a user is masked.** In a masked text, what stands before an at sign, up to
the last slash or blank, ends with a colon and the asterisks, provided that some colon in it has a
character other than a colon in front of it and some text without a parameter behind it. -/
theorem ends_of_mask_eq {t front run back : Text} (h : mask t = front ++ (run ++ '@' :: back))
    (hrun : ∀ d ∈ run, isPasswordChar d = true) {user password : Text} {c : Char}
    (hsplit : run = user ++ c :: ':' :: password) (hc : c ≠ ':') (hne : password ≠ [])
    (hshows : ¬ ShowsParameter password) : ∃ z, run = z ++ ":****".toList := by
  subst hsplit
  have hisUser : isUserChar c = true := by
    obtain ⟨hblank, hat, hslash⟩ := isPasswordChar_eq_true.1 (hrun c (by simp))
    exact isUserChar_eq_true.2 ⟨hblank, hc, hslash, hat⟩
  obtain ⟨z, hz⟩ := credentialsMasked_mask t (front ++ user) c password back (by rw [h]; simp)
    hisUser hne (fun d hd => hrun d (by simp [hd])) hshows
  exact ⟨user ++ c :: z, by rw [hz, List.append_assoc]; rfl⟩

/-- Two credentials, and a parameter between them that takes in a slash. -/
theorem ends_of_mask_eq_two_at_signs :
    mask "u:a@b?key=x/y&v:w:z@h" = "u:****@b?key=****&v:****@h".toList ∧
      ∃ z, "b?key=****&v:****".toList = z ++ ":****".toList := by
  have h : mask "u:a@b?key=x/y&v:w:z@h" =
      "u:****@".toList ++ ("b?key=****&v:****".toList ++ '@' :: "h".toList) := by decide +kernel
  refine ⟨h, @ends_of_mask_eq _ _ _ _ h (Text.forall_mem_of_all (by decide)) "b?key=****&" asterisks 'v'
    rfl (by decide) (by decide) ?_⟩
  rintro ⟨front, mark, name, after, heq, hmark, -⟩
  have hmem : mark ∈ asterisks := heq ▸ by simp
  revert hmem
  rcases hmark with rfl | rfl <;> decide

/-- A password without a user is left in the text, where the check of commands finds it. So is the
end of a password in which a parameter lost its slash. -/
theorem mask_without_user :
    (mask "http://:secret@host" = "http://:secret@host".toList ∧
      Check.passwordInUrl.found (mask "http://:secret@host") = true ∧
        ¬ ∃ z, ":secret".toList = z ++ ":****".toList) ∧
    mask "u:?key=a/b&c@h" = "u:?key=****&c@h".toList ∧
      Check.passwordInUrl.found (mask "u:?key=a/b&c@h") = true ∧
        ¬ ∃ z, "u:?key=****&c".toList = z ++ ":****".toList := by
  have hends {t : Text} (ht : t.reverse.take 5 ≠ ":****".toList.reverse) :
      ¬ ∃ z, t = z ++ ":****".toList := by
    rintro ⟨z, rfl⟩
    exact ht (by rw [List.reverse_append, List.take_left' (by decide)])
  exact ⟨⟨by decide +kernel, by decide +kernel, hends (by decide)⟩, by decide +kernel,
    by decide +kernel, hends (by decide)⟩

end ScriptAudit.Redaction
