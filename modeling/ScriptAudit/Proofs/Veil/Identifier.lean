import ScriptAudit.Proofs.Document.Identifier
import ScriptAudit.Proofs.Text.Password

/-!
# A password in an identifier

An identifier that takes in a password is never well formed, because of the colon in front of it
(`Identifier.isValid_enclosed`). The variable that it uses does not depend on the password
(`Identifier.usedName?_enclosed`): either the name is read in front of the colon, or no name is.
-/

namespace ScriptAudit

namespace Identifier

mutual

theorem afterName_eq_false : ∀ t s, afterName (t ++ ':' :: s) = false
  | [], _ => rfl
  | c :: t, s => by
    rw [List.cons_append]
    by_cases hopen : c = '('
    · subst hopen
      exact inCall_eq_false t s
    · rw [afterName_of_ne hopen, afterName_eq_false t s, Bool.and_false]

theorem inCall_eq_false : ∀ t s, inCall (t ++ ':' :: s) = false
  | [], _ => rfl
  | c :: t, s => by
    rw [List.cons_append]
    by_cases hclose : c = ')'
    · subst hclose
      exact afterCall_eq_false t s
    · rw [inCall_of_ne hclose, inCall_eq_false t s, Bool.and_false]

theorem afterCall_eq_false : ∀ t s, afterCall (t ++ ':' :: s) = false
  | [], _ => rfl
  | [c], s => by
    by_cases hdot : c = '.'
    · subst hdot
      rfl
    · exact afterCall_of_ne hdot _
  | c :: d :: t, s => by
    by_cases hdot : c = '.'
    · subst hdot
      rw [List.cons_append, List.cons_append, afterCall, afterName_eq_false t s, Bool.and_false]
    · exact afterCall_of_ne hdot _

end

/-- An identifier with a colon in it is not well formed. -/
theorem isValid_enclosed (p t s : Text) : isValid (t ++ (enclosed p ++ s)) = false := by
  rw [isValid, Text.trim_enclosed, enclosed_append]
  cases Text.trimLeft t with
  | nil =>
    have hcolon : isNameChar ':' = false := by decide
    show (isNameChar ':' && _) = false
    rw [hcolon, Bool.false_and]
  | cons c t =>
    show (isNameChar c && afterName (t ++ _)) = false
    rw [afterName_eq_false, Bool.and_false]

section

variable {p q : Text}

theorem arguments_enclosed (hp : IsPassword p) (s : Text) :
    arguments (enclosed p ++ s) = arguments s :=
  arguments_append (fun c hc =>
    ⟨fun heq => hp.notMem (by decide) (by decide) (by decide) (heq ▸ hc),
      fun heq => hp.notMem (by decide) (by decide) (by decide) (heq ▸ hc)⟩) s

theorem isWord_colon_and (b : Bool) : (isWord ':' && b) = false := by
  have hcolon : isWord ':' = false := by decide
  rw [hcolon, Bool.false_and]

mutual

theorem members_enclosed (hp : IsPassword p) (hq : IsPassword q) : ∀ t s,
    members (t ++ (enclosed p ++ s)) = members (t ++ (enclosed q ++ s))
  | [], _ => rfl
  | [c], s => by
    rw [enclosed_append, enclosed_append]
    by_cases hc : c = '.'
    · rw [hc, List.singleton_append, List.singleton_append, members_dot, members_dot,
        isWord_colon_and, isWord_colon_and]
    · rw [List.singleton_append, List.singleton_append, members_of_ne hc, members_of_ne hc]
  | c :: d :: t, s => by
    rw [List.cons_append, List.cons_append, List.cons_append, List.cons_append]
    by_cases hc : c = '.'
    · rw [hc, members_dot, members_dot, member_enclosed hp hq t s]
    · rw [members_of_ne hc, members_of_ne hc]

theorem member_enclosed (hp : IsPassword p) (hq : IsPassword q) : ∀ t s,
    member (t ++ (enclosed p ++ s)) = member (t ++ (enclosed q ++ s))
  | [], _ => by
    rw [List.nil_append, List.nil_append, enclosed_append, enclosed_append,
      member_of_ne (by decide) (by decide), member_of_ne (by decide) (by decide),
      isWord_colon_and, isWord_colon_and]
  | c :: t, s => by
    rw [List.cons_append, List.cons_append]
    by_cases hopen : c = '('
    · subst hopen
      exact argumentsFrom_enclosed hp hq t s
    by_cases hdot : c = '.'
    · subst hdot
      cases t with
      | nil =>
        rw [List.nil_append, List.nil_append, enclosed_append, enclosed_append, member_dot,
          member_dot, isWord_colon_and, isWord_colon_and]
      | cons d t =>
        rw [List.cons_append, List.cons_append, member_dot, member_dot, member_enclosed hp hq t s]
    · rw [member_of_ne hopen hdot, member_of_ne hopen hdot, member_enclosed hp hq t s]

theorem argumentsFrom_enclosed (hp : IsPassword p) (hq : IsPassword q) : ∀ t s,
    arguments (t ++ (enclosed p ++ s)) = arguments (t ++ (enclosed q ++ s))
  | [], s => by
    rw [List.nil_append, List.nil_append, arguments_enclosed hp, arguments_enclosed hq]
  | c :: t, s => by
    by_cases hc : c = ')'
    · subst hc
      exact members_enclosed hp hq t s
    · rw [List.cons_append, List.cons_append, arguments_of_ne hc, arguments_of_ne hc,
        argumentsFrom_enclosed hp hq t s]

end

/-- The variable that an identifier uses does not depend on a password in it. -/
theorem usedName?_enclosed (hp : IsPassword p) (hq : IsPassword q) (t s : Text) :
    usedName? (t ++ (enclosed p ++ s)) = usedName? (t ++ (enclosed q ++ s)) := by
  have hcolon : isWord ':' = false := by decide
  have hname (p : Text) : (Text.trimLeft t ++ (enclosed p ++ Text.trimRight s)).takeWhile isWord =
      (Text.trimLeft t).takeWhile isWord := by
    rw [enclosed_append, Text.takeWhile_append_cons hcolon]
  have hrest (p : Text) : (Text.trimLeft t ++ (enclosed p ++ Text.trimRight s)).drop
      ((Text.trimLeft t).takeWhile isWord).length =
        (Text.trimLeft t).dropWhile isWord ++ (enclosed p ++ Text.trimRight s) := by
    rw [← hname p, Text.drop_length_takeWhile, enclosed_append, Text.dropWhile_append_cons hcolon]
  simp only [usedName?, Text.trim_enclosed, hname, hrest, members_enclosed hp hq]

end

end Identifier

end ScriptAudit
