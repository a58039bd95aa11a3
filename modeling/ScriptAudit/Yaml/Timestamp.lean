import ScriptAudit.Fault

/-!
# Dates and times

`Timestamp.read?` reads a date, or a date with a time, from a whole text; `Timestamp.value` checks
that it exists. A time may have a fraction of a second, of which six digits count, and a
difference to world time.
-/

namespace ScriptAudit.Yaml

/-- A day of the calendar. -/
structure Date where
  year : Nat
  month : Nat
  day : Nat
  deriving DecidableEq

/-- A time on a day, with the difference to world time in minutes if it is known. -/
structure Moment where
  date : Date
  hour : Nat
  minute : Nat
  second : Nat
  micro : Nat
  offset : Option Int
  deriving DecidableEq

/-! ## Reading -/

/-- The time of day as it is written. -/
structure WrittenTime where
  hour : Nat
  minute : Nat
  second : Nat
  /-- The digits after the point. -/
  fraction : Text
  /-- The difference to world time in minutes. -/
  offset : Option Int

/-- A date, or a date with a time, as it is written. -/
structure Timestamp where
  date : Date
  time : Option WrittenTime
  /-- Whether month and day have two digits each. -/
  padded : Bool

namespace Timestamp

/-- The number that decimal digits stand for. -/
def value10 (t : Text) : Nat := t.foldl (fun n c => 10 * n + (c.toNat - 48)) 0

/-- Takes between `least` and `most` digits off the text. -/
def digits? (least most : Nat) (t : Text) : Option (Text × Text) :=
  let ds := (t.take most).takeWhile Char.isDigit
  if ds.length < least then none else some (ds, t.drop ds.length)

/-- Takes a character off the text. -/
def char? (c : Char) : Text → Option Text
  | d :: t => if c = d then some t else none
  | [] => none

/-- Space and tab. -/
def isGap (c : Char) : Bool := c == ' ' || c == '\t'

/-- The difference to world time that ends a timestamp, if there is one. -/
def offset? (t : Text) : Option (Option Int) :=
  if t.isEmpty then some none
  else
    match t.dropWhile isGap with
    | ['Z'] => some (some 0)
    | s :: t =>
      if s = '+' || s = '-' then do
        let (h, t) ← digits? 1 2 t
        let m ← match t with
          | [] => pure []
          | ':' :: t => do
            let (m, t) ← digits? 2 2 t
            if t.isEmpty then pure m else none
          | _ => none
        let minutes : Int := 60 * value10 h + value10 m
        return some (if s = '-' then -minutes else minutes)
      else none
    | [] => none

/-- The time that follows a date. -/
def time? (t : Text) : Option WrittenTime := do
  let t ← match t with
    | 'T' :: t => pure t
    | 't' :: t => pure t
    | c :: t => if isGap c then pure (t.dropWhile isGap) else none
    | [] => none
  let (hour, t) ← digits? 1 2 t
  let (minute, t) ← digits? 2 2 (← char? ':' t)
  let (second, t) ← digits? 2 2 (← char? ':' t)
  let (fraction, t) := match t with
    | '.' :: t => (t.takeWhile Char.isDigit, t.dropWhile Char.isDigit)
    | t => ([], t)
  return ⟨value10 hour, value10 minute, value10 second, fraction, ← offset? t⟩

/-- Reads a timestamp from a whole text. -/
def read? (t : Text) : Option Timestamp := do
  let (year, t) ← digits? 4 4 t
  let (month, t) ← digits? 1 2 (← char? '-' t)
  let (day, t) ← digits? 1 2 (← char? '-' t)
  let time ← if t.isEmpty then pure none else (time? t).map some
  return ⟨⟨value10 year, value10 month, value10 day⟩, time, month.length = 2 && day.length = 2⟩

/-- Whether a plain scalar has the form of a timestamp; a date alone has to be padded. -/
def isPlain (t : Text) : Bool := (read? t).any fun s => s.time.isSome || s.padded

/-! ## Checking -/

/-- Whether a year has a day more. -/
def isLeap (year : Nat) : Bool := year % 4 == 0 && (year % 100 != 0 || year % 400 == 0)

/-- The number of days of a month. -/
def monthDays (year month : Nat) : Nat :=
  if month == 2 then if isLeap year then 29 else 28
  else if month == 4 || month == 6 || month == 9 || month == 11 then 30
  else 31

/-- Refuses a date that does not exist. -/
def checkDate (d : Date) : Except Fault Unit :=
  if d.year = 0 then .error (.year 0)
  else if d.month = 0 || d.month > 12 then .error (.datePart .month)
  else if d.day = 0 || d.day > monthDays d.year d.month then .error (.datePart .day)
  else .ok ()

/-- Refuses a time that does not exist. -/
def checkTime (t : WrittenTime) : Except Fault Unit :=
  if t.hour > 23 then .error (.datePart .hour)
  else if t.minute > 59 then .error (.datePart .minute)
  else if t.second > 59 then .error (.datePart .second)
  else .ok ()

/-- Refuses a difference to world time of a day or more. -/
def checkOffset (o : Option Int) : Except Fault Unit :=
  match o with
  | some m => if m.natAbs ≥ 1440 then .error (.offset m) else .ok ()
  | none => .ok ()

/-- The day or the time on a day that a timestamp stands for. -/
def value (s : Timestamp) : Except Fault (Date ⊕ Moment) := do
  match s.time with
  | none =>
    checkDate s.date
    return .inl s.date
  | some t =>
    checkOffset t.offset
    checkDate s.date
    checkTime t
    let six := t.fraction.take 6
    let micro := value10 (six ++ Text.copies (6 - six.length) '0')
    return .inr ⟨s.date, t.hour, t.minute, t.second, micro, t.offset⟩

end Timestamp

/-! ## Writing -/

/-- A number with at least `width` digits. -/
def padded (width n : Nat) : Text :=
  let ds := Text.ofNat n
  Text.copies (width - ds.length) '0' ++ ds

/-- A date in the form `2001-12-14`. -/
def Date.text (d : Date) : Text :=
  padded 4 d.year ++ ['-'] ++ padded 2 d.month ++ ['-'] ++ padded 2 d.day

/-- A date as it appears inside a collection. -/
def Date.inner (d : Date) : Text :=
  "datetime.date(" ++ Text.joinWith ", " ([d.year, d.month, d.day].map Text.ofNat) ++ [')']

/-- The difference to world time in the form `+02:00`. -/
def offsetText (minutes : Int) : Text :=
  (if minutes < 0 then '-' else '+') ::
    (padded 2 (minutes.natAbs / 60) ++ [':'] ++ padded 2 (minutes.natAbs % 60))

/-- A time on a day, with `sep` between the two. -/
def Moment.text (sep : Char) (m : Moment) : Text :=
  m.date.text ++ [sep] ++ padded 2 m.hour ++ [':'] ++ padded 2 m.minute ++ [':'] ++
    padded 2 m.second ++ (if m.micro = 0 then [] else '.' :: padded 6 m.micro) ++
    (m.offset.map offsetText).getD []

/-- A time on a day as it appears inside a collection. -/
def Moment.inner (m : Moment) : Text :=
  let d := m.date
  let parts := [d.year, d.month, d.day, m.hour, m.minute] ++
    (if m.micro ≠ 0 then [m.second, m.micro] else if m.second ≠ 0 then [m.second] else [])
  let zone : Text := match m.offset with
    | none => []
    | some 0 => ", tzinfo=datetime.timezone.utc"
    | some o => ", tzinfo=datetime.timezone(" ++ spanText o ++ [')']
  "datetime.datetime(" ++ Text.joinWith ", " (parts.map Text.ofNat) ++ zone ++ [')']

end ScriptAudit.Yaml
