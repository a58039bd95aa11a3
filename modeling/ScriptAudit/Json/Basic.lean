import ScriptAudit.Number.Basic

/-!
# JSON values

The fields of an object are kept in the order in which they were first written.
-/

namespace ScriptAudit

/-- A JSON value; integers and fractions are told apart. -/
inductive Json
  /-- The value `null`. -/
  | null
  /-- A truth value. -/
  | bool (value : Bool)
  /-- A number. -/
  | num (value : Number)
  /-- A string. -/
  | str (value : Text)
  /-- An array. -/
  | arr (items : List Json)
  /-- An object. -/
  | obj (fields : List (Text × Json))

namespace Json

/-- Gives a field its value: in its place when it is there already, else at the end. -/
def put (key : Text) (value : Json) : List (Text × Json) → List (Text × Json)
  | [] => [(key, value)]
  | (k, v) :: fields => if k == key then (k, value) :: fields else (k, v) :: put key value fields

/-- The value of a field. -/
def get? (key : Text) (fields : List (Text × Json)) : Option Json := fields.lookup key

/-- A natural number as a value. -/
def nat (n : Nat) : Json := .num (.int n)

/-- An integer as a value. -/
def int (i : Int) : Json := .num (.int i)

/-- A text, or `null` where there is none. -/
def textOrNull : Option Text → Json
  | some t => .str t
  | none => .null

/-- A field that is written only when it has a value. -/
def field? (key : String) (value : Option Json) : List (Text × Json) :=
  (value.map fun v => ((key : Text), v)).toList

/-- An object from its fields. -/
def object (fields : List (String × Json)) : Json := .obj (fields.map fun (k, v) => (k.toList, v))

/-- An array of strings. -/
def texts (ts : List Text) : Json := .arr (ts.map .str)

end Json

end ScriptAudit
