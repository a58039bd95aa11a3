import ScriptAudit.Check.Commands
import ScriptAudit.Json.Basic

/-!
# Masking secrets

`Redaction.mask` hides passwords and other secrets in a text: those between a user and a host,
those of parameters of a URL, and those after the word `password=`. What is hidden is replaced by
four asterisks. `Redaction.maskAll` does this to every string inside a value.
-/

namespace ScriptAudit.Redaction

/-- What stands in place of a secret. -/
def asterisks : Text := "****"

/-- A user, a colon, a password and an at sign. -/
def userPassword : Recogniser Text := fun _ t =>
  let user := t.takeWhile fun c => !isBlank c && c ≠ ':' && c ≠ '/' && c ≠ '@'
  match t.drop user.length with
  | ':' :: rest =>
    let password := rest.takeWhile fun c => !isBlank c && c ≠ '@' && c ≠ '/'
    if !user.isEmpty && !password.isEmpty && (rest.drop password.length).head? = some '@' then
      some (user ++ [':'] ++ asterisks ++ ['@'], user.length + password.length + 2)
    else none
  | _ => none

/-- A parameter of a URL that holds a secret. -/
def parameter : Recogniser Text := fun _ t =>
  match t with
  | c :: rest =>
    if c = '?' || c = '&' then
      (Check.secretName? rest).map fun n =>
        let value := (rest.drop n).takeWhile fun c => c ≠ '&' && !isBlank c
        (t.take (n + 1) ++ asterisks, n + 1 + value.length)
    else none
  | [] => none

/-- The word `password=` and what follows it. -/
def argument : Recogniser Text := fun before t => do
  if before.any isWord then none
  let rest ← Text.afterKeyword? "password=" t
  let value := rest.takeWhile (!isBlank ·)
  if value.isEmpty then none else return (t.take 9 ++ asterisks, 9 + value.length)

/-- A text with its secrets masked. -/
def mask (t : Text) : Text :=
  argument.replaced (parameter.replaced (userPassword.replaced t))

mutual

/-- A value with the secrets in its strings masked. -/
def maskAll : Json → Json
  | .str t => .str (mask t)
  | .arr vs => .arr (maskItems vs)
  | .obj fs => .obj (maskFields fs)
  | .null => .null
  | .bool b => .bool b
  | .num n => .num n

/-- Items with the secrets in their strings masked. -/
def maskItems : List Json → List Json
  | [] => []
  | v :: vs => maskAll v :: maskItems vs

/-- Fields with the secrets in their values masked. -/
def maskFields : List (Text × Json) → List (Text × Json)
  | [] => []
  | (k, v) :: fs => (k, maskAll v) :: maskFields fs

end

theorem maskItems_eq_map (vs : List Json) : maskItems vs = vs.map maskAll := by
  induction vs with
  | nil => rfl
  | cons v vs ih => rw [maskItems, ih, List.map_cons]

theorem maskFields_append (fs fs' : List (Text × Json)) :
    maskFields (fs ++ fs') = maskFields fs ++ maskFields fs' := by
  induction fs with
  | nil => rfl
  | cons f fs ih => rw [List.cons_append, maskFields, ih, maskFields, List.cons_append]

/-- A field that holds a text has it masked. -/
theorem maskFields_field? (key : String) (t : Option Text) :
    maskFields (Json.field? key (t.map .str)) = Json.field? key ((t.map mask).map .str) := by
  cases t <;> rfl

/-- Masking changes the values of fields, but not which fields there are. -/
theorem get?_maskFields (key : Text) (fs : List (Text × Json)) :
    Json.get? key (maskFields fs) = (Json.get? key fs).map maskAll := by
  induction fs with
  | nil => rfl
  | cons f fs ih =>
    rw [Json.get?] at ih ⊢
    rw [maskFields, Json.get?, List.lookup_cons, List.lookup_cons, ih]
    cases key == f.1 <;> rfl

end ScriptAudit.Redaction
