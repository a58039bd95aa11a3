import Mathlib.Data.List.TakeWhile
import ScriptAudit.Check.Redaction
import ScriptAudit.Proofs.Text.Keyword
import ScriptAudit.Proofs.Text.Scan
import ScriptAudit.Proofs.Text.Words

/-!
# What is masked

For each of the three recognisers of secrets, the texts that it finds are described as a
concatenation of their parts, together with what is put in their place.
-/

namespace ScriptAudit

namespace Redaction

/-! ## Users and passwords -/

/-- The characters of a user. -/
def isUserChar (c : Char) : Bool := !isBlank c && c ≠ ':' && c ≠ '/' && c ≠ '@'

/-- The characters of a password, and of the part of a URL before an at sign. -/
def isPasswordChar (c : Char) : Bool := !isBlank c && c ≠ '@' && c ≠ '/'

theorem isUserChar_eq_true {c : Char} :
    isUserChar c = true ↔ isBlank c = false ∧ c ≠ ':' ∧ c ≠ '/' ∧ c ≠ '@' := by
  simp [isUserChar, and_assoc]

theorem isPasswordChar_eq_true {c : Char} :
    isPasswordChar c = true ↔ isBlank c = false ∧ c ≠ '@' ∧ c ≠ '/' := by
  simp [isPasswordChar, and_assoc]

/-- A user, a colon, a password and an at sign. -/
structure IsCredential (find user password : Text) : Prop where
  eq : find = user ++ ':' :: (password ++ ['@'])
  user_ne_nil : user ≠ []
  isUserChar_user : ∀ c ∈ user, isUserChar c = true
  password_ne_nil : password ≠ []
  isPasswordChar_password : ∀ c ∈ password, isPasswordChar c = true

/-- What is put in place of a credential. -/
def maskedCredential (user : Text) : Text := user ++ ':' :: (asterisks ++ ['@'])

theorem userPassword_append {find user password : Text} (h : IsCredential find user password)
    (before : Option Char) (t : Text) :
    userPassword before (find ++ t) = some (maskedCredential user, find.length) := by
  obtain ⟨rfl, huser, hisUser, hpassword, hisPassword⟩ := h
  have htext : user ++ ':' :: (password ++ ['@']) ++ t = user ++ ':' :: (password ++ '@' :: t) := by
    simp
  have htakeUser : (user ++ ':' :: (password ++ '@' :: t)).takeWhile isUserChar = user :=
    Text.takeWhile_append_of_head? hisUser (by simp; decide)
  have htakePassword : (password ++ '@' :: t).takeWhile isPasswordChar = password :=
    Text.takeWhile_append_of_head? hisPassword (by simp; decide)
  unfold isUserChar at htakeUser
  unfold isPasswordChar at htakePassword
  rw [htext, userPassword]
  simp only [htakeUser, List.drop_left, htakePassword]
  simp [huser, hpassword, maskedCredential]
  omega

theorem userPassword_eq_some {before : Option Char} {t new : Text} {n : Nat}
    (h : userPassword before t = some (new, n)) :
    ∃ find user password rest, t = find ++ rest ∧ IsCredential find user password ∧
      new = maskedCredential user ∧ n = find.length := by
  let user := t.takeWhile isUserChar
  have ht : user ++ t.drop user.length = t := List.prefix_iff_eq_append.1 (List.takeWhile_prefix _)
  have huser : ∀ c ∈ user, isUserChar c = true := fun c hc => List.mem_takeWhile_imp hc
  rw [userPassword] at h
  split at h
  · next rest hrest =>
    let password := rest.takeWhile isPasswordChar
    replace hrest : t.drop user.length = ':' :: rest := hrest
    replace h : (if !user.isEmpty && !password.isEmpty && (rest.drop password.length).head? = some '@'
      then some (user ++ [':'] ++ asterisks ++ ['@'], user.length + password.length + 2)
      else none) = some (new, n) := h
    have hpassword : ∀ c ∈ password, isPasswordChar c = true := fun c hc => List.mem_takeWhile_imp hc
    have hsplit : password ++ rest.drop password.length = rest :=
      List.prefix_iff_eq_append.1 (List.takeWhile_prefix _)
    obtain ⟨hcond, heq⟩ := Option.ite_none_right_eq_some.1 h
    obtain ⟨rfl, rfl⟩ := Prod.mk.inj (Option.some.inj heq)
    simp only [Bool.and_eq_true, Bool.not_eq_true', List.isEmpty_eq_false_iff, decide_eq_true_eq] at hcond
    obtain ⟨⟨huserne, hpasswordne⟩, hat⟩ := hcond
    obtain ⟨tail, htail⟩ : ∃ tail, rest.drop password.length = '@' :: tail := by
      cases hd : rest.drop password.length with
      | nil => rw [hd] at hat; simp at hat
      | cons c cs => rw [hd] at hat; exact ⟨cs, by simpa using hat⟩
    refine ⟨user ++ ':' :: (password ++ ['@']), user, password, tail, ?_,
      ⟨rfl, huserne, huser, hpasswordne, hpassword⟩, ?_, ?_⟩
    · rw [← ht, hrest, ← hsplit, htail]
      simp
    · simp [maskedCredential]
    · show user.length + password.length + 2 = _
      simp only [List.length_append, List.length_cons, List.length_nil]
      omega
  · exact absurd h (by simp)

theorem progresses_userPassword : userPassword.Progresses := by
  intro before t new n h
  obtain ⟨find, user, password, rest, rfl, hfind, -, rfl⟩ := userPassword_eq_some h
  have hpos : 0 < find.length := by
    rw [hfind.eq, List.length_append, List.length_cons]
    omega
  exact ⟨hpos, by rw [List.length_append]; omega⟩

theorem begins_userPassword : userPassword.Begins fun _ c => isUserChar c = true := by
  intro before t new n h
  obtain ⟨find, user, password, rest, rfl, hfind, rfl, -⟩ := userPassword_eq_some h
  obtain ⟨rfl, hne, huser, -, -⟩ := hfind
  obtain ⟨c, user, rfl⟩ := List.exists_cons_of_ne_nil hne
  exact ⟨c, rfl, rfl, huser c List.mem_cons_self⟩

/-! ## Parameters -/

/-- The name of a parameter that holds a secret, in letters of any case. -/
def IsSecretName (name : Text) : Prop := name.map foldLetter ∈ Check.secretNames

theorem ne_equals_of_isSecretName {name : Text} (h : IsSecretName name) : '=' ∉ name := by
  have hnames : ∀ n ∈ Check.secretNames, '=' ∉ n := by decide
  intro hmem
  exact hnames _ h (List.mem_map.2 ⟨'=', hmem, by decide⟩)

/-- The names of secrets are words. -/
theorem isWord_of_isSecretName {name : Text} (h : IsSecretName name) : ∀ c ∈ name, isWord c = true := by
  have hnames : ∀ n ∈ Check.secretNames, n.all Char.isAlpha = true := by decide
  exact fun c hc => isWord_of_isAlpha_foldLetter
    (List.all_eq_true.1 (hnames _ h) _ (List.mem_map.2 ⟨c, hc, rfl⟩))

theorem ne_nil_of_isSecretName {name : Text} (h : IsSecretName name) : name ≠ [] := by
  have hnames : [] ∉ Check.secretNames := by decide
  rintro rfl
  exact hnames h

theorem secretName?_eq_some {t : Text} {n : Nat} (h : Check.secretName? t = some n) :
    ∃ name rest, t = name ++ '=' :: rest ∧ IsSecretName name ∧ n = name.length + 1 := by
  have hfold : ∀ k ∈ Check.secretNames, k.map foldLetter = k := by decide
  obtain ⟨k, hk, hfound⟩ := List.exists_of_findSome?_eq_some h
  split at hfound
  · next rest hrest =>
    obtain ⟨name, rfl, hname⟩ := Text.afterKeyword?_eq_some.1 hrest
    obtain rfl := Option.some.inj hfound
    rw [hfold k hk] at hname
    have hlength : name.length = k.length := by rw [← hname, List.length_map]
    exact ⟨name, rest, rfl, by rwa [IsSecretName, hname], by rw [hlength]⟩
  · exact absurd hfound (by simp)

theorem secretName?_append {name : Text} (h : IsSecretName name) (rest : Text) :
    Check.secretName? (name ++ '=' :: rest) = some (name.length + 1) := by
  have hfold : ∀ k ∈ Check.secretNames, k.map foldLetter = k := by decide
  have hread : Text.afterKeyword? (name.map foldLetter) (name ++ '=' :: rest) = some ('=' :: rest) :=
    Text.afterKeyword?_eq_some.2 ⟨name, rfl, (hfold _ h).symm⟩
  cases hfound : Check.secretName? (name ++ '=' :: rest) with
  | none =>
    have := List.findSome?_eq_none_iff.1 hfound _ h
    simp [hread] at this
  | some n =>
    obtain ⟨name', rest', heq, hname', rfl⟩ := secretName?_eq_some hfound
    -- the name ends at the first equals sign
    obtain ⟨rfl, -⟩ := Text.eq_of_append_cons_eq (ne_equals_of_isSecretName h)
      (ne_equals_of_isSecretName hname') heq
    rfl

/-- A question mark or an ampersand, the name of a secret, and its value. -/
structure IsParameter (find : Text) (mark : Char) (name value : Text) : Prop where
  eq : find = mark :: (name ++ '=' :: value)
  mark_eq : mark = '?' ∨ mark = '&'
  isSecretName : IsSecretName name
  value_eq : ∀ c ∈ value, c ≠ '&' ∧ isBlank c = false

/-- What is put in place of a parameter. -/
def maskedParameter (mark : Char) (name : Text) : Text := mark :: (name ++ '=' :: asterisks)

/-- Whether a character ends the value of a parameter. -/
def EndsValue (c : Char) : Prop := c = '&' ∨ isBlank c = true

instance : DecidablePred EndsValue := fun c => inferInstanceAs (Decidable (c = '&' ∨ isBlank c = true))

theorem parameter_isSome {before : Option Char} {mark : Char} {name rest : Text}
    (hmark : mark = '?' ∨ mark = '&') (hname : IsSecretName name) :
    (parameter before (mark :: (name ++ '=' :: rest))).isSome = true := by
  have hmark : (mark = '?' || mark = '&') = true := by simpa using hmark
  simp [parameter, hmark, secretName?_append hname]

theorem parameter_eq_some {before : Option Char} {t new : Text} {n : Nat}
    (h : parameter before t = some (new, n)) :
    ∃ find mark name value rest, t = find ++ rest ∧ IsParameter find mark name value ∧
      (∀ c ∈ rest.head?, EndsValue c) ∧ new = maskedParameter mark name ∧ n = find.length := by
  cases t with
  | nil => exact absurd h (by simp [parameter])
  | cons mark t =>
    rw [parameter] at h
    obtain ⟨hmark, h⟩ := Option.ite_none_right_eq_some.1 h
    obtain ⟨m, hm, h⟩ := Option.map_eq_some_iff.1 h
    obtain ⟨rfl, rfl⟩ := Prod.mk.inj h
    obtain ⟨name, tail, rfl, hname, rfl⟩ := secretName?_eq_some hm
    have htail : (name ++ '=' :: tail).drop (name.length + 1) = tail := by
      simp
    have htake : (name ++ '=' :: tail).take (name.length + 1) = name ++ ['='] :=
      List.take_length_add_append 1
    rw [htail]
    let value := tail.takeWhile fun c => c ≠ '&' && !isBlank c
    have hsplit : value ++ tail.drop value.length = tail :=
      List.prefix_iff_eq_append.1 (List.takeWhile_prefix _)
    have hvalue : ∀ c ∈ value, c ≠ '&' ∧ isBlank c = false := fun c hc => by
      simpa using List.mem_takeWhile_imp hc
    refine ⟨mark :: (name ++ '=' :: value), mark, name, value, tail.drop value.length, ?_,
      ⟨rfl, by simpa using hmark, hname, hvalue⟩, ?_, ?_, ?_⟩
    · rw [List.cons_append, List.append_assoc, List.cons_append, hsplit]
    · intro c hc
      rw [Text.drop_length_takeWhile] at hc
      have hend := Text.eq_false_of_mem_head?_dropWhile hc
      rw [EndsValue]
      by_contra hnot
      rw [not_or, Bool.not_eq_true] at hnot
      simp [hnot] at hend
    · rw [List.take_succ_cons, htake]
      simp [maskedParameter]
    · show name.length + 1 + 1 + value.length = _
      simp only [List.length_append, List.length_cons]
      omega

theorem progresses_parameter : parameter.Progresses := by
  intro before t new n h
  obtain ⟨find, mark, name, value, rest, rfl, hfind, -, -, rfl⟩ := parameter_eq_some h
  simp [hfind.eq]

theorem begins_parameter : parameter.Begins fun _ c => c = '?' ∨ c = '&' := by
  intro before t new n h
  obtain ⟨find, mark, name, value, rest, rfl, hfind, -, rfl, -⟩ := parameter_eq_some h
  exact ⟨mark, by rw [hfind.eq]; rfl, rfl, hfind.mark_eq⟩

/-- A parameter is found up to the end of its value. -/
theorem parameter_append {find : Text} {mark : Char} {name value : Text}
    (h : IsParameter find mark name value) {rest : Text} (hrest : ∀ c ∈ rest.head?, EndsValue c)
    (before : Option Char) :
    parameter before (find ++ rest) = some (maskedParameter mark name, find.length) := by
  obtain ⟨rfl, hmark, hname, hvalue⟩ := h
  have htake : (value ++ rest).takeWhile (fun c => c ≠ '&' && !isBlank c) = value := by
    refine Text.takeWhile_append_of_head? (fun c hc => ?_) fun c hc => ?_
    · simp [hvalue c hc]
    · rcases hrest c hc with hc | hc <;> simp [hc]
  have hmark' : (mark = '?' || mark = '&') = true := by simpa using hmark
  simp only [List.cons_append, List.append_assoc, parameter, if_pos hmark', secretName?_append hname,
    Option.map_some]
  have hdrop : (name ++ '=' :: (value ++ rest)).drop (name.length + 1) = value ++ rest := by simp
  have hkey : (name ++ '=' :: (value ++ rest)).take (name.length + 1) = name ++ ['='] :=
    List.take_length_add_append 1
  rw [hdrop, htake, List.take_succ_cons, hkey]
  simp [maskedParameter]
  omega

/-- Neither the name of a secret nor what follows it up to its value begins a parameter. -/
theorem not_mark_of_mem {name : Text} (h : IsSecretName name) {c : Char}
    (hc : c ∈ name ++ '=' :: asterisks) : ¬ (c = '?' ∨ c = '&') := by
  rcases List.mem_append.1 hc with hc | hc
  · have hword := isWord_of_isSecretName h c hc
    rintro (rfl | rfl)
    · exact absurd hword (by decide +kernel)
    · exact absurd hword (by decide +kernel)
  · have hrest : ∀ c ∈ '=' :: asterisks, ¬ (c = '?' ∨ c = '&') := Text.forall_mem_of_all (by decide)
    exact hrest c hc

/-! ## Arguments -/

/-- The word `password` in letters of any case. -/
def IsPasswordWord (word : Text) : Prop := word.map foldLetter = "password".toList

/-- The word `password`, an equals sign and what follows up to a blank. -/
structure IsArgument (find word value : Text) : Prop where
  eq : find = word ++ '=' :: value
  isPasswordWord : IsPasswordWord word
  value_ne_nil : value ≠ []
  isBlank_value : ∀ c ∈ value, isBlank c = false

/-- What is put in place of an argument. -/
def maskedArgument (word : Text) : Text := word ++ '=' :: asterisks

theorem isSecretName_of_isPasswordWord {word : Text} (h : IsPasswordWord word) :
    IsSecretName word := by
  rw [IsSecretName, h]
  decide

/-- The word begins with the letter p and holds no other one. -/
theorem IsPasswordWord.exists_cons {word : Text} (h : IsPasswordWord word) :
    ∃ c tail, word = c :: tail ∧ foldLetter c = 'p' ∧
      ∀ d ∈ tail ++ '=' :: asterisks, foldLetter d ≠ 'p' := by
  have hcons : "password".toList = 'p' :: "assword".toList := rfl
  rw [IsPasswordWord, hcons, List.map_eq_cons_iff] at h
  obtain ⟨c, tail, rfl, hc, htail⟩ := h
  refine ⟨c, tail, rfl, hc, fun d hd => ?_⟩
  rcases List.mem_append.1 hd with hd | hd
  · have hletters : ∀ k ∈ "assword".toList, k ≠ 'p' := Text.forall_mem_of_all (by decide)
    exact hletters _ (htail ▸ List.mem_map.2 ⟨d, hd, rfl⟩)
  · have hrest : ∀ d ∈ '=' :: asterisks, foldLetter d ≠ 'p' := Text.forall_mem_of_all (by decide)
    exact hrest d hd

theorem afterKeyword?_password {t rest : Text} :
    Text.afterKeyword? "password=" t = some rest ↔
      ∃ word, t = word ++ '=' :: rest ∧ IsPasswordWord word := by
  rw [Text.afterKeyword?_eq_some]
  constructor
  · rintro ⟨find, rfl, hfind⟩
    have hfold : "password=".toList.map foldLetter = "password".toList ++ ['='] := by decide
    rw [hfold, List.map_eq_append_iff] at hfind
    obtain ⟨word, last, rfl, hword, hlast⟩ := hfind
    obtain ⟨c, rfl, hc⟩ := List.map_eq_singleton_iff.1 hlast
    have heq : foldLetter c = c := foldLetter_eq_self (by rw [hc]; decide)
    rw [heq] at hc
    subst hc
    exact ⟨word, by simp, hword⟩
  · rintro ⟨word, rfl, hword⟩
    refine ⟨word ++ ['='], by simp, ?_⟩
    rw [List.map_append, hword]
    decide

theorem argument_eq (before : Option Char) (t : Text) :
    argument before t =
      if before.any isWord then none
      else
        match Text.afterKeyword? "password=" t with
        | none => none
        | some rest =>
          if (rest.takeWhile (!isBlank ·)).isEmpty then none
          else some (t.take 9 ++ asterisks, 9 + (rest.takeWhile (!isBlank ·)).length) := by
  rw [argument]
  split
  · rfl
  · cases Text.afterKeyword? "password=" t <;> rfl

/-- Behind the word `password=` nothing is left to be masked if nothing is found. -/
theorem isBlank_of_argument_eq_none {before : Option Char} {word rest : Text}
    (hbefore : before.any isWord = false) (hword : IsPasswordWord word)
    (h : argument before (word ++ '=' :: rest) = none) : ∀ c ∈ rest.head?, isBlank c = true := by
  have hread : Text.afterKeyword? "password=" (word ++ '=' :: rest) = some rest :=
    afterKeyword?_password.2 ⟨word, rfl, hword⟩
  rw [argument_eq, hbefore, if_neg Bool.false_ne_true, hread] at h
  cases rest with
  | nil => simp
  | cons c cs =>
    intro d hd
    obtain rfl : c = d := by simpa using hd
    cases hblank : isBlank c with
    | true => rfl
    | false => simp [hblank] at h

/-- An argument is found up to the next blank, where no word goes on. -/
theorem argument_append {find word value : Text} (h : IsArgument find word value)
    {before : Option Char} (hbefore : before.any isWord = false) {rest : Text}
    (hrest : ∀ c ∈ rest.head?, isBlank c = true) :
    argument before (find ++ rest) = some (maskedArgument word, find.length) := by
  obtain ⟨rfl, hword, hne, hvalue⟩ := h
  have hlength : word.length = 8 := by simpa using congrArg List.length hword
  have hread : Text.afterKeyword? "password=" (word ++ '=' :: (value ++ rest)) =
      some (value ++ rest) := afterKeyword?_password.2 ⟨word, rfl, hword⟩
  have htake : (value ++ rest).takeWhile (!isBlank ·) = value := by
    refine Text.takeWhile_append_of_head? (fun c hc => ?_) fun c hc => ?_
    · simp [hvalue c hc]
    · simp [hrest c hc]
  have hkey : (word ++ '=' :: (value ++ rest)).take 9 = word ++ ['='] := by
    rw [show 9 = word.length + 1 by omega, List.take_length_add_append]
    rfl
  rw [List.append_assoc, List.cons_append, argument_eq, hbefore, if_neg Bool.false_ne_true, hread]
  simp only [htake, if_neg (show ¬ value.isEmpty = true by simpa using hne), hkey]
  simp [maskedArgument, hlength]
  omega

theorem argument_eq_some {before : Option Char} {t new : Text} {n : Nat}
    (h : argument before t = some (new, n)) :
    before.any isWord = false ∧ ∃ find word value rest, t = find ++ rest ∧
      IsArgument find word value ∧ (∀ c ∈ rest.head?, isBlank c = true) ∧
        new = maskedArgument word ∧ n = find.length := by
  rw [argument_eq] at h
  obtain ⟨hbefore, h⟩ := Option.ite_none_left_eq_some.1 h
  refine ⟨by simpa using hbefore, ?_⟩
  split at h
  · exact absurd h (by simp)
  · next tail htail =>
    obtain ⟨hne, h⟩ := Option.ite_none_left_eq_some.1 h
    obtain ⟨rfl, rfl⟩ := Prod.mk.inj (Option.some.inj h)
    obtain ⟨word, rfl, hword⟩ := afterKeyword?_password.1 htail
    have hlength : word.length = 8 := by simpa using congrArg List.length hword
    have htake : (word ++ '=' :: tail).take 9 = word ++ ['='] := by
      rw [show 9 = word.length + 1 by omega, List.take_length_add_append]
      rfl
    refine ⟨word ++ '=' :: tail.takeWhile (!isBlank ·), word, tail.takeWhile (!isBlank ·),
      tail.dropWhile (!isBlank ·), ?_, ⟨rfl, hword, by simpa using hne, ?_⟩, ?_, ?_, ?_⟩
    · rw [List.append_assoc, List.cons_append, List.takeWhile_append_dropWhile]
    · exact fun c hc => by simpa using List.mem_takeWhile_imp hc
    · exact fun c hc => by simpa using Text.eq_false_of_mem_head?_dropWhile hc
    · rw [htake]
      simp [maskedArgument]
    · simp only [List.length_append, List.length_cons]
      omega

theorem progresses_argument : argument.Progresses := by
  intro before t new n h
  obtain ⟨-, find, word, value, rest, rfl, hfind, -, -, rfl⟩ := argument_eq_some h
  have hpos : 0 < find.length := by
    rw [hfind.eq, List.length_append, List.length_cons]
    omega
  exact ⟨hpos, by rw [List.length_append]; omega⟩

theorem begins_argument :
    argument.Begins fun before c => before.any isWord = false ∧ foldLetter c = 'p' := by
  intro before t new n h
  obtain ⟨hbefore, find, word, value, rest, rfl, hfind, -, rfl, -⟩ := argument_eq_some h
  obtain ⟨c, tail, rfl, hc, -⟩ := hfind.isPasswordWord.exists_cons
  exact ⟨c, by rw [hfind.eq]; rfl, rfl, hbefore, hc⟩

/-! ## Texts without secrets -/

/-- A text without a colon holds no credential. -/
theorem replaced_userPassword_eq_self {t : Text} (hcolon : ':' ∉ t) : userPassword.replaced t = t := by
  refine Recogniser.replaced_eq_self fun before u hu => Option.eq_none_iff_forall_ne_some.2 ?_
  rintro ⟨new, n⟩ hfound
  obtain ⟨find, user, password, rest, rfl, hfind, -⟩ := userPassword_eq_some hfound
  exact hcolon (hu.subset (by rw [hfind.eq]; simp))

/-- A text without a colon and an equals sign holds nothing to be masked. -/
theorem mask_eq_self {t : Text} (hcolon : ':' ∉ t) (hequals : '=' ∉ t) : mask t = t := by
  have hparameter : parameter.replaced t = t := by
    refine Recogniser.replaced_eq_self fun before u hu => Option.eq_none_iff_forall_ne_some.2 ?_
    rintro ⟨new, n⟩ hfound
    obtain ⟨find, mark, name, value, rest, rfl, hfind, -⟩ := parameter_eq_some hfound
    exact hequals (hu.subset (by rw [hfind.eq]; simp))
  have hargument : argument.replaced t = t := by
    refine Recogniser.replaced_eq_self fun before u hu => Option.eq_none_iff_forall_ne_some.2 ?_
    rintro ⟨new, n⟩ hfound
    obtain ⟨-, find, word, value, rest, rfl, hfind, -⟩ := argument_eq_some hfound
    exact hequals (hu.subset (by rw [hfind.eq]; simp))
  rw [mask, replaced_userPassword_eq_self hcolon, hparameter, hargument]

end Redaction

end ScriptAudit
