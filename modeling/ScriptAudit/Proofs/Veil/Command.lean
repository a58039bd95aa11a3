import ScriptAudit.Proofs.Document.Target
import ScriptAudit.Proofs.Text.Password

/-!
# A password in a command

What the checks ask of a command does not depend on a password in its text: the keyword, the
variable after `Into`, whether there is a target, how it ends and whether it shows credentials, and
the form of a `Connect` (`Command.Alike`). So lines that differ in a password are no commands, or
such commands (`Command.ofLine?_enclosed`), and the same issues are raised about both
(`Command.Alike.issues_eq`).
-/

namespace ScriptAudit

variable {p q : Text}

/-! ## Keywords -/

namespace Keyword

theorem afterKeyword?_name (k : Keyword) (t s : Text) :
    Text.afterKeyword? k.name (t ++ ':' :: s) =
      (Text.afterKeyword? k.name t).map (· ++ ':' :: s) :=
  Text.afterKeyword?_append_cons (Text.foldLetter_ne_of_isAlpha k.isAlpha_name (by decide)) t s

/-- The keyword of a text stands in front of any colon. -/
theorem ofText?_append_cons (t s s' : Text) : ofText? (t ++ ':' :: s) = ofText? (t ++ ':' :: s') := by
  have hafter (k : Keyword) :
      (k.after? (t ++ ':' :: s)).isSome = (k.after? (t ++ ':' :: s')).isSome := by
    rw [after?, after?, afterKeyword?_name, afterKeyword?_name]
    cases Text.afterKeyword? k.name t with
    | none => rfl
    | some rest =>
      show Option.isSome (if _ then none else some _) = Option.isSome (if _ then none else some _)
      rw [Text.head?_append_cons, Text.head?_append_cons]
      split <;> rfl
  rw [ofText?, ofText?]
  exact congrArg (all.find? ·) (funext hafter)

end Keyword

/-! ## Targets -/

namespace Command

/-- Two targets that are the same or differ in a password. -/
inductive TargetTwin (p q : Text) : Option Text → Option Text → Prop
  /-- The targets are the same. -/
  | refl (t : Option Text) : TargetTwin p q t t
  /-- The target takes in the password. -/
  | veiled (u v : Text) : TargetTwin p q (some (u ++ (enclosed p ++ v))) (some (u ++ (enclosed q ++ v)))

/-- A word with a colon in it is no flag. -/
theorem isFlag_append_cons (t s : Text) : isFlag (t ++ ':' :: s) = false := by
  have hne (keyword : Text) (hkeyword : ∀ k ∈ keyword, (foldLetter k).isAlpha = true) :
      (Text.afterKeyword? keyword (t ++ ':' :: s) == some []) = false := by
    rw [Text.afterKeyword?_append_cons (Text.foldLetter_ne_of_isAlpha hkeyword (by decide))]
    cases Text.afterKeyword? keyword t <;> simp
  rw [isFlag, hne _ (Text.forall_mem_of_all (by decide)), hne _ (Text.forall_mem_of_all (by decide))]
  rfl

theorem targetAmong?_enclosed (before : List Text) (left right : Text) (after : List Text) :
    TargetTwin p q (targetAmong? (before ++ (left ++ (enclosed p ++ right)) :: after))
      (targetAmong? (before ++ (left ++ (enclosed q ++ right)) :: after)) := by
  have hflag (p : Text) : isFlag (left ++ (enclosed p ++ right)) = false := by
    rw [enclosed_append, isFlag_append_cons]
  induction before with
  | nil =>
    rw [List.nil_append, List.nil_append, targetAmong?_of_not_isFlag (hflag p),
      targetAmong?_of_not_isFlag (hflag q)]
    exact .veiled left right
  | cons w before ih =>
    rw [List.cons_append, List.cons_append, targetAmong?_cons w (by simp),
      targetAmong?_cons w (by simp)]
    split
    · exact ih
    · exact .refl _

/-- The password stands in one of the words after the keyword. -/
theorem targetOf?_enclosed (hp : IsPassword p) (hq : IsPassword q) (k : Keyword) (t s : Text) :
    TargetTwin p q (targetOf? k (t ++ (enclosed p ++ s))) (targetOf? k (t ++ (enclosed q ++ s))) := by
  rw [targetOf?, targetOf?, enclosed_append, enclosed_append, Keyword.afterKeyword?_name,
    Keyword.afterKeyword?_name]
  split
  · exact .refl none
  · cases Text.afterKeyword? k.name t with
    | none => exact .refl none
    | some rest =>
      obtain ⟨before, left, right, after, hwords⟩ := Text.exists_words_append rest s
      have hwordsOf {p : Text} (hp : IsPassword p) : Text.words (rest ++ ':' :: (p ++ '@' :: s)) =
          before ++ (left ++ (enclosed p ++ right)) :: after := by
        rw [← enclosed_append, hwords (enclosed p) (List.cons_ne_nil _ _) hp.isBlank_eq_false]
      show TargetTwin p q
        (if (rest ++ ':' :: (p ++ '@' :: s)).head?.any isBlank then targetAmong? _ else none)
        (if (rest ++ ':' :: (q ++ '@' :: s)).head?.any isBlank then targetAmong? _ else none)
      rw [Text.head?_append_cons, Text.head?_append_cons, hwordsOf hp, hwordsOf hq]
      split
      · exact targetAmong?_enclosed before left right after
      · exact .refl none

theorem TargetTwin.isNone_eq {s t : Option Text} (h : TargetTwin p q s t) :
    s.isNone = t.isNone := by
  cases h <;> rfl

end Command

/-- How a text ends is told behind a character that does not occur in the ending. -/
theorem Text.endsWith_append_cons {suffix : Text} {a : Char} (ha : a ∉ suffix) (t s : Text) :
    endsWith suffix (t ++ a :: s) = endsWith suffix s := by
  rw [endsWith, endsWith, Bool.eq_iff_iff, List.isSuffixOf_iff_suffix, List.isSuffixOf_iff_suffix]
  have hrest : a :: s <:+ t ++ a :: s := List.suffix_append t _
  constructor
  · intro h
    rcases List.suffix_or_suffix_of_suffix h hrest with h | h
    · rcases List.suffix_cons_iff.1 h with rfl | h
      · exact absurd List.mem_cons_self ha
      · exact h
    · exact absurd (h.subset List.mem_cons_self) ha
  · exact fun h => (h.trans (List.suffix_cons a s)).trans hrest

/-- Whether a file can be called is told behind the at sign. -/
theorem Command.TargetTwin.endsWith_eq {s t : Option Text} (h : TargetTwin p q s t) :
    (s.any fun t => !Check.callExtensions.any (Text.endsWith · t)) =
      t.any fun t => !Check.callExtensions.any (Text.endsWith · t) := by
  cases h with
  | refl => rfl
  | veiled u v =>
    have hat : ∀ suffix ∈ Check.callExtensions, '@' ∉ suffix := by decide
    have hends (p : Text) : Check.callExtensions.any (Text.endsWith · (u ++ (enclosed p ++ v))) =
        Check.callExtensions.any (Text.endsWith · v) := by
      have hsplit : u ++ (enclosed p ++ v) = (u ++ ':' :: p) ++ '@' :: v := by simp [enclosed]
      rw [hsplit, Bool.eq_iff_iff, List.any_eq_true, List.any_eq_true]
      exact exists_congr fun suffix => and_congr_right fun hmem => by
        rw [Text.endsWith_append_cons (hat suffix hmem)]
    show (!_) = !_
    rw [hends, hends]

/-! ## Credentials -/

/-- What is found at one place of a text is found in the text. -/
theorem Recogniser.found_append {α : Type} {r : Recogniser α} {t : Text} (ht : t ≠ [])
    (h : ∀ before, r before t ≠ none) (u : Text) : r.found (u ++ t) = true := by
  suffices hsearch : ∀ before, (r.search before (u ++ t)).isSome = true from hsearch none
  induction u with
  | nil =>
    intro before
    obtain ⟨c, cs, rfl⟩ := List.exists_cons_of_ne_nil ht
    rw [List.nil_append, search]
    split
    · rfl
    · next heq => exact absurd heq (h before)
  | cons c u ih =>
    intro before
    rw [List.cons_append, search]
    split
    · rfl
    · exact ih (some c)

theorem Check.hasCredentials_enclosed (hp : IsPassword p) (t s : Text) :
    hasCredentials (t ++ (enclosed p ++ s)) = true := by
  have hrun : ∀ c ∈ p, (decide (c ≠ '@') && decide (c ≠ '/')) = true := by
    intro c hc
    simp [ne_of_isAlphanum (hp.isAlphanum c hc) (show '@'.isAlphanum = false by decide),
      ne_of_isAlphanum (hp.isAlphanum c hc) (show '/'.isAlphanum = false by decide)]
  have htake : (p ++ '@' :: s).takeWhile (fun c => c ≠ '@' && c ≠ '/') = p :=
    Text.takeWhile_append_of_head? hrun (by simp)
  have hfound : passwordInUrl.found (t ++ (enclosed p ++ s)) = true := by
    refine Recogniser.found_append (by simp [enclosed]) (fun before => ?_) t
    rw [enclosed_append, passwordInUrl, htake]
    simp [hp.ne_nil]
  rw [hasCredentials, hfound, Bool.true_or]

/-! ## Connect -/

namespace Check

/-- The text without a mark at its front. -/
def skip (a : Char) (t : Text) : Text := (Text.after? [a] t).getD t

theorem skip_cons (a c : Char) (t : Text) : skip a (c :: t) = if a = c then t else c :: t := by
  rw [skip, Text.after?]
  split
  · cases t <;> rfl
  · rfl

theorem skip_append_cons {a : Char} (ha : a ≠ ':') (t s : Text) :
    skip a (t ++ ':' :: s) = skip a t ++ ':' :: s := by
  cases t with
  | nil => exact (skip_cons a ':' s).trans (if_neg ha)
  | cons c t =>
    rw [List.cons_append, skip_cons, skip_cons]
    split <;> rfl

theorem isEmpty_enclosed (p t s : Text) : (t ++ (enclosed p ++ s)).isEmpty = false := by
  cases t <;> rfl

theorem isCondition_enclosed (hp : IsPassword p) (hq : IsPassword q) (t s : Text) :
    isCondition (t ++ (enclosed p ++ s)) = isCondition (t ++ (enclosed q ++ s)) := by
  have hwhen : ∀ k ∈ "When".toList, foldLetter k ≠ foldLetter ':' :=
    Text.forall_mem_of_all (by decide)
  have hblank : isBlank ':' = false := by decide
  have hfeed {p : Text} (hp : IsPassword p) (rest : Text) :
      (rest ++ (enclosed p ++ s)).elem '\n' = (rest ++ s).elem '\n' := by
    have hp' : '\n' ∉ enclosed p := hp.notMem (by decide) (by decide) (by decide)
    rw [List.elem_eq_mem, List.elem_eq_mem]
    simp [hp']
  have hcondition {p : Text} (hp : IsPassword p) : isCondition (t ++ (enclosed p ++ s)) =
      (isBlank (t.headD ':') &&
        (Text.afterKeyword? "When" (Text.trimLeft t)).any fun rest =>
          isBlank (rest.headD ':') && !(Text.trimLeft rest ++ s).elem '\n') := by
    have hhead (t : Text) : (t ++ (enclosed p ++ s)).head? = some (t.headD ':') :=
      Text.head?_append_cons t ':' _
    have htrim (t : Text) : Text.trimLeft (t ++ (enclosed p ++ s)) =
        Text.trimLeft t ++ (enclosed p ++ s) := by
      rw [enclosed_append, Text.trimLeft_append_cons hblank]
    rw [isCondition, hhead, htrim, enclosed_append, Text.afterKeyword?_append_cons hwhen,
      ← enclosed_append]
    cases Text.afterKeyword? "When" (Text.trimLeft t) with
    | none => rfl
    | some rest =>
      simp only [Option.map_some, Option.any_some, hhead, htrim, hfeed hp, isEmpty_enclosed,
        Bool.not_false, Bool.and_true]
  rw [hcondition hp, hcondition hq]

/-- Whether a `Connect` may go on like this behind the user and the password. -/
def endsConnect (rest : Text) : Bool := rest.isEmpty || isCondition rest

theorem endsConnect_enclosed (hp : IsPassword p) (hq : IsPassword q) (t s : Text) :
    endsConnect (t ++ (enclosed p ++ s)) = endsConnect (t ++ (enclosed q ++ s)) := by
  rw [endsConnect, endsConnect, isEmpty_enclosed, isEmpty_enclosed, isCondition_enclosed hp hq]

/-- The characters of a password behind a user. -/
def isPasswordWord (c : Char) : Bool := isWord c || c == '.'

theorem afterUser?_colon {user : Text} (huser : ∀ c ∈ user, isWord c = true) (hne : user ≠ [])
    (t : Text) : afterUser? (user ++ ':' :: t) =
      if ((skip '$' (skip '{' t)).takeWhile isPasswordWord).isEmpty then none
      else some (skip '}' ((skip '$' (skip '{' t)).dropWhile isPasswordWord)) := by
  have hcolon : isWord ':' = false := by decide
  have htake : (user ++ ':' :: t).takeWhile isWord = user :=
    Text.takeWhile_append_of_head? huser (by simp [hcolon])
  rw [afterUser?, htake, List.drop_left, if_neg (by simp [hne]), ← Text.drop_length_takeWhile]
  rfl

theorem afterUser?_of_ne {user rest : Text} (huser : ∀ c ∈ user, isWord c = true) (hne : user ≠ [])
    (hrest : ∀ c ∈ rest.head?, isWord c = false ∧ c ≠ ':') : afterUser? (user ++ rest) = some rest := by
  have htake : (user ++ rest).takeWhile isWord = user :=
    Text.takeWhile_append_of_head? huser fun c hc => (hrest c hc).1
  rw [afterUser?, htake, List.drop_left, if_neg (by simp [hne])]
  split
  · exact absurd rfl (hrest ':' rfl).2
  · rfl

/-- Behind a user the password of the user, and then an at sign, which ends no `Connect`. -/
theorem afterUser?_password {user : Text} (huser : ∀ c ∈ user, isWord c = true) (hne : user ≠ [])
    (hp : IsPassword p) (s : Text) : afterUser? (user ++ (enclosed p ++ s)) = some ('@' :: s) := by
  have hskip {a : Char} (ha : a.isAlphanum = false) (t : Text) : skip a (p ++ t) = p ++ t := by
    obtain ⟨c, p', rfl⟩ := List.exists_cons_of_ne_nil hp.ne_nil
    rw [List.cons_append, skip_cons,
      if_neg (ne_of_isAlphanum (hp.isAlphanum c List.mem_cons_self) ha).symm]
  have hword : ∀ c ∈ p, isPasswordWord c = true := fun c hc => by
    rw [isPasswordWord, hp.isWord_of_mem c hc, Bool.true_or]
  have hat : ∀ c ∈ ('@' :: s).head?, isPasswordWord c = false := by
    rintro c ⟨⟩
    decide
  rw [enclosed_append, afterUser?_colon huser hne, hskip (by decide), hskip (by decide),
    Text.takeWhile_append_of_head? hword hat, Text.dropWhile_append_of_head? hword hat,
    if_neg (by simp [hp.ne_nil]), skip_cons, if_neg (by decide)]

/-- What follows a user does not depend on a password, as far as it is looked at. -/
theorem afterUser?_enclosed (hp : IsPassword p) (hq : IsPassword q) (t s : Text) :
    (afterUser? (t ++ (enclosed p ++ s))).any endsConnect =
      (afterUser? (t ++ (enclosed q ++ s))).any endsConnect := by
  obtain ⟨user, rest, rfl, huser, hrest⟩ : ∃ user rest, t = user ++ rest ∧
      (∀ c ∈ user, isWord c = true) ∧ ∀ c ∈ rest.head?, isWord c = false :=
    ⟨t.takeWhile isWord, t.dropWhile isWord, List.takeWhile_append_dropWhile.symm,
      fun c hc => List.mem_takeWhile_imp hc, fun c hc => by
        have := List.head?_dropWhile_not isWord t
        rw [Option.mem_def.1 hc] at this
        simpa using this⟩
  rw [List.append_assoc, List.append_assoc]
  by_cases hne : user = []
  · -- no user
    have hnone (s : Text) : afterUser? (user ++ (rest ++ ':' :: s)) = none := by
      have htake : (rest ++ ':' :: s).takeWhile isWord = [] := by
        rw [Text.takeWhile_append_cons (by decide)]
        cases rest with
        | nil => rfl
        | cons c rest => simp [hrest c rfl]
      rw [hne, List.nil_append, afterUser?, htake]
      rfl
    rw [enclosed_append, enclosed_append, hnone, hnone]
  cases rest with
  | nil =>
    rw [List.nil_append, List.nil_append, afterUser?_password huser hne hp,
      afterUser?_password huser hne hq]
  | cons c rest =>
    by_cases hc : c = ':'
    · -- the password comes behind the one of the user
      have hcolon : isPasswordWord ':' = false := by decide
      have hafter (p : Text) : afterUser? (user ++ (c :: rest ++ (enclosed p ++ s))) =
          if ((skip '$' (skip '{' rest)).takeWhile isPasswordWord).isEmpty then none
          else some (skip '}' ((skip '$' (skip '{' rest)).dropWhile isPasswordWord) ++
            (enclosed p ++ s)) := by
        rw [hc, List.cons_append, afterUser?_colon huser hne, enclosed_append,
          skip_append_cons (by decide), skip_append_cons (by decide),
          Text.takeWhile_append_cons hcolon, Text.dropWhile_append_cons hcolon,
          skip_append_cons (by decide)]
      rw [hafter, hafter]
      split
      · rfl
      · exact endsConnect_enclosed hp hq _ s
    · have hafter (p : Text) : afterUser? (user ++ (c :: rest ++ (enclosed p ++ s))) =
          some (c :: rest ++ (enclosed p ++ s)) := by
        refine afterUser?_of_ne huser hne ?_
        rintro d ⟨⟩
        exact ⟨hrest c rfl, hc⟩
      rw [hafter, hafter]
      exact endsConnect_enclosed hp hq _ s

theorem isConnect_enclosed (hp : IsPassword p) (hq : IsPassword q) (t s : Text) :
    isConnect (t ++ (enclosed p ++ s)) = isConnect (t ++ (enclosed q ++ s)) := by
  have hconnect : ∀ k ∈ "Connect".toList, foldLetter k ≠ foldLetter ':' :=
    Text.forall_mem_of_all (by decide)
  have hblank : isBlank ':' = false := by decide
  rw [isConnect, isConnect, enclosed_append, enclosed_append, Text.afterKeyword?_append_cons hconnect,
    Text.afterKeyword?_append_cons hconnect]
  cases Text.afterKeyword? "Connect" t with
  | none => rfl
  | some rest =>
    have huser := afterUser?_enclosed hp hq (Text.trimLeft rest) s
    rw [enclosed_append, enclosed_append] at huser
    simp only [Option.map_some, Text.head?_append_cons, Text.trimLeft_append_cons hblank]
    exact congrArg (_ && ·) huser

end Check

/-! ## Commands -/

/-- A capital at sign is an at sign. -/
theorem Text.mem_lowerFrom {t : Text} (h : '@' ∈ t) (before : Text) : '@' ∈ lowerFrom before t := by
  induction t generalizing before with
  | nil => exact absurd h List.not_mem_nil
  | cons c t ih =>
    rw [lowerFrom]
    rcases List.mem_cons.1 h with rfl | h
    · rw [if_neg (by decide)]
      exact List.mem_append_left _ (by decide)
    · exact List.mem_append_right _ (ih h _)

namespace Command

/-- Two commands of which the checks see the same. -/
structure Alike (c d : Command) : Prop where
  keyword_eq : c.keyword = d.keyword
  line_eq : c.line = d.line
  into_eq : c.into = d.into
  isNone_target_eq : c.target.isNone = d.target.isNone
  endsWith_target_eq : (c.target.any fun t => !Check.callExtensions.any (Text.endsWith · t)) =
    d.target.any fun t => !Check.callExtensions.any (Text.endsWith · t)
  hasCredentials_target_eq : c.target.any Check.hasCredentials = d.target.any Check.hasCredentials
  lower_text_eq : (Text.lower (Text.trim c.text) != "connect".toList) =
    (Text.lower (Text.trim d.text) != "connect".toList)
  isConnect_text_eq : Check.isConnect (Text.trim c.text) = Check.isConnect (Text.trim d.text)

namespace Alike

variable {c d : Command}

theorem refl (c : Command) : Alike c c := ⟨rfl, rfl, rfl, rfl, rfl, rfl, rfl, rfl⟩

/-- The body of a command is not checked. -/
theorem withBody (h : Alike c d) (b b' : Option Text) : Alike { c with body := b } { d with body := b' } :=
  ⟨h.keyword_eq, h.line_eq, h.into_eq, h.isNone_target_eq, h.endsWith_target_eq,
    h.hasCredentials_target_eq, h.lower_text_eq, h.isConnect_text_eq⟩

/-- The same issues are raised about both commands. -/
theorem issues_eq (h : Alike c d) (fileType : Option FileType) :
    Check.command fileType c = Check.command fileType d := by
  simp only [Check.command, Check.commandIssue, h.keyword_eq, h.line_eq, h.into_eq, h.isNone_target_eq,
    h.endsWith_target_eq, h.hasCredentials_target_eq, h.lower_text_eq, h.isConnect_text_eq]

end Alike

section

variable (hp : IsPassword p) (hq : IsPassword q)

include hp hq

theorem TargetTwin.hasCredentials_eq {s t : Option Text} (h : TargetTwin p q s t) :
    s.any Check.hasCredentials = t.any Check.hasCredentials := by
  cases h with
  | refl => rfl
  | veiled u v =>
    exact (Check.hasCredentials_enclosed hp u v).trans (Check.hasCredentials_enclosed hq u v).symm

/-- Texts that differ in a password are no commands, or commands that the checks see alike. -/
theorem ofLine?_enclosed (t s : Text) (n : Nat) :
    Option.Rel Alike (ofLine? (t ++ (enclosed p ++ s)) n) (ofLine? (t ++ (enclosed q ++ s)) n) := by
  have hkeyword : Keyword.ofText? (t ++ (enclosed p ++ s)) = Keyword.ofText? (t ++ (enclosed q ++ s)) := by
    rw [enclosed_append, enclosed_append]
    exact Keyword.ofText?_append_cons t _ _
  have hlower (p : Text) :
      (Text.lower (Text.trim (t ++ (enclosed p ++ s))) != "connect".toList) = true := by
    have hmem : '@' ∈ Text.lower (Text.trim (t ++ (enclosed p ++ s))) := by
      rw [Text.trim_enclosed, enclosed]
      exact Text.mem_lowerFrom (by simp) []
    rw [bne_iff_ne]
    intro heq
    rw [heq] at hmem
    exact absurd hmem (by decide)
  rw [ofLine?, ofLine?, hkeyword]
  cases Keyword.ofText? (t ++ (enclosed q ++ s)) with
  | none => exact .none
  | some k =>
    have htarget := targetOf?_enclosed hp hq k t s
    refine .some ⟨rfl, rfl, ?_, ?_, ?_, htarget.hasCredentials_eq hp hq, ?_, ?_⟩
    · exact (Text.overlooks_wordAfter (Text.forall_mem_of_all (by decide))).first?_eq hp hq t s
    · exact htarget.isNone_eq
    · exact htarget.endsWith_eq
    · exact (hlower p).trans (hlower q).symm
    · show Check.isConnect (Text.trim _) = Check.isConnect (Text.trim _)
      rw [Text.trim_enclosed, Text.trim_enclosed, Check.isConnect_enclosed hp hq]

end

end Command

end ScriptAudit
