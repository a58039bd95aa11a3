import ScriptAudit.Yaml.Timestamp
import ScriptAudit.Number.Basic

/-!
# Values of a YAML document

A `Value` is what a document means. `Value.text` shows a value inside a message: a string as it
is, everything inside a collection in the notation of that collection. A value with an integer of
more than `Numeral.maxDigits` digits cannot be shown.
-/

namespace ScriptAudit.Yaml

/-- What a node means. -/
inductive Value
  | null
  | bool (value : Bool)
  | num (value : Number)
  | str (value : Text)
  | bytes (value : Bytes)
  | date (value : Date)
  | moment (value : Moment)
  | list (items : List Value)
  /-- A key and a value as an item of a list. -/
  | pair (key value : Value)
  /-- Values without order. -/
  | set (members : List Value)
  /-- Keys with their values, in the order in which the keys came first. -/
  | map (entries : List (Value × Value))
  /-- The collection that holds this value. -/
  | enclosing (isMapping : Bool)

namespace Value

/-! ## Keys -/

/-- The number that a truth value or a number equals as a key. -/
def asNumber? : Value → Option Number
  | bool b => some (.int (if b then 1 else 0))
  | num n => some n
  | _ => none

/-- The minutes from the beginning of the calendar to a moment, in world time. -/
def worldMinutes (m : Moment) (offset : Int) : Int :=
  let d := m.date
  let y := d.year - 1
  let before := y * 365 + y / 4 - y / 100 + y / 400
  let months :=
    (List.range (d.month - 1)).foldl (fun n i => n + Timestamp.monthDays d.year (i + 1)) 0
  (((before + months + d.day) * 24 + m.hour) * 60 + m.minute : Nat) - offset

/-- Whether two moments are one; a moment without a known offset differs from all others. -/
def sameMoment (a b : Moment) : Bool :=
  match a.offset, b.offset with
  | some x, some y =>
    worldMinutes a x == worldMinutes b y && a.second == b.second && a.micro == b.micro
  | none, none => a == b
  | _, _ => false

/-- Whether two values are the same key. -/
def sameKey (a b : Value) : Bool :=
  match a, b with
  | null, null => true
  | str s, str t => s == t
  | bytes s, bytes t => s == t
  | date d, date e => d == e
  | moment m, moment n => sameMoment m n
  | a, b =>
    match a.asNumber?, b.asNumber? with
    | some x, some y => x.same y
    | _, _ => false

/-- Gives a key its value: in its place when it is there already, else at the end. -/
def put (key value : Value) : List (Value × Value) → List (Value × Value)
  | [] => [(key, value)]
  | (k, v) :: es => if k.sameKey key then (k, value) :: es else (k, v) :: put key value es

/-- The value of a key that is a string. -/
def get? (key : Text) (entries : List (Value × Value)) : Option Value :=
  entries.findSome? fun
    | (str k, v) => if k == key then some v else none
    | _ => none

/-! ## Emptiness -/

/-- Whether a value counts as nothing: null, false, zero, and what is empty. -/
def isVoid : Value → Bool
  | null => true
  | bool b => !b
  | num n => n.isZero
  | str t => t.isEmpty
  | bytes bs => bs.isEmpty
  | list items => items.isEmpty
  | set members => members.isEmpty
  | map entries => entries.isEmpty
  | date _ => false
  | moment _ => false
  | pair _ _ => false
  | enclosing _ => false

/-! ## Showing -/

/-- A byte between quotation marks. -/
def byteText (mark : Char) (b : UInt8) : Text :=
  let c := Char.ofNat b.toNat
  if c = mark || c = '\\' then ['\\', c]
  else if c = '\n' then ['\\', 'n']
  else if c = '\r' then ['\\', 'r']
  else if c = '\t' then ['\\', 't']
  else if b.toNat < 32 || b.toNat ≥ 127 then '\\' :: 'x' :: Text.hex 2 b.toNat
  else [c]

/-- Bytes between quotation marks. -/
def bytesText (bs : Bytes) : Text :=
  let mark := Text.quoteMark (bs.map fun b => Char.ofNat b.toNat)
  'b' :: mark :: bs.flatMap (byteText mark) ++ [mark]

/-- A number inside a message. -/
def numberText : Number → Except Fault Text
  | .int i => shownInt i
  | .float x => .ok (Shortest.text x)

mutual

/-- A value as it appears inside a collection. -/
def inner : Value → Except Fault Text
  | null => .ok "None"
  | bool b => .ok (if b then "True" else "False")
  | num n => numberText n
  | str t => .ok (Text.quoted t)
  | bytes bs => .ok (bytesText bs)
  | date d => .ok d.inner
  | moment m => .ok m.inner
  | list items => do return '[' :: Text.joinWith ", " (← innerItems items) ++ [']']
  | pair k v => do return '(' :: (← k.inner) ++ ", ".toList ++ (← v.inner) ++ [')']
  | set [] => .ok "set()"
  | set (v :: vs) => do return '{' :: Text.joinWith ", " ((← v.inner) :: (← innerItems vs)) ++ ['}']
  | map entries => do return '{' :: Text.joinWith ", " (← innerEntries entries) ++ ['}']
  | enclosing isMapping => .ok (if isMapping then "\x7b...\x7d" else "[...]")

/-- The items of a collection. -/
def innerItems : List Value → Except Fault (List Text)
  | [] => .ok []
  | v :: vs => do return (← v.inner) :: (← innerItems vs)

/-- The entries of a mapping. -/
def innerEntries : List (Value × Value) → Except Fault (List Text)
  | [] => .ok []
  | (k, v) :: es => do return ((← k.inner) ++ ": ".toList ++ (← v.inner)) :: (← innerEntries es)

end

/-- A value as it appears in a message. -/
def text : Value → Except Fault Text
  | str t => .ok t
  | date d => .ok d.text
  | moment m => .ok (m.text ' ')
  | v => v.inner

end Value

end ScriptAudit.Yaml
