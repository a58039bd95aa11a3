import ScriptAudit.Text.Quoted
import ScriptAudit.Text.Utf8
import ScriptAudit.Number.Numeral

/-!
# Faults

A `Fault` is the reason why an operation gives no answer. `Fault.message` says it in words.
-/

namespace ScriptAudit

/-- What is wrong with a file that is to be read or executed. -/
inductive FileFault
  /-- Nothing has this name. -/
  | missing
  /-- A part of the path before the last one is not a directory. -/
  | notDirectory
  /-- The path leads to a directory. -/
  | directory
  /-- Access is not permitted. -/
  | forbidden
  /-- A part of the path is too long. -/
  | tooLong
  /-- A file that is to be executed has no known form. -/
  | notExecutable
  deriving DecidableEq

namespace FileFault

/-- The number that the system gives to a fault. -/
def number : FileFault → Nat
  | missing => 2
  | notDirectory => 20
  | directory => 21
  | forbidden => 13
  | tooLong => 36
  | notExecutable => 8

/-- What the system says about a fault. -/
def describe : FileFault → Text
  | missing => "No such file or directory"
  | notDirectory => "Not a directory"
  | directory => "Is a directory"
  | forbidden => "Permission denied"
  | tooLong => "File name too long"
  | notExecutable => "Exec format error"

/-- A fault together with the path that it concerns. -/
def message (f : FileFault) (path : Text) : Text :=
  "[Errno " ++ Text.ofNat f.number ++ "] " ++ f.describe ++ ": " ++ Text.quoted path

end FileFault

/-- The parts of a date or time that may be out of range. -/
inductive DatePart
  | month
  | day
  | hour
  | minute
  | second
  deriving DecidableEq

/-- What is wrong with a part of a date or time. -/
def DatePart.describe : DatePart → Text
  | month => "month must be in 1..12"
  | day => "day is out of range for month"
  | hour => "hour must be in 0..23"
  | minute => "minute must be in 0..59"
  | second => "second must be in 0..59"

/-- The difference of two times as days and seconds, as it is written in messages. -/
def spanText (minutes : Int) : Text :=
  let days := minutes.fdiv 1440
  let seconds := minutes.fmod 1440 * 60
  let parts : List Text :=
    (if days = 0 then [] else ["days=" ++ Text.ofInt days]) ++
      (if seconds = 0 then [] else ["seconds=" ++ Text.ofInt seconds])
  "datetime.timedelta(" ++ (if parts.isEmpty then ['0'] else Text.joinWith ", " parts) ++ [')']

/-- Why an operation gives no answer. -/
inductive Fault
  /-- No year has this number. -/
  | year (n : Nat)
  /-- A part of a date or time is out of range. -/
  | datePart (part : DatePart)
  /-- A difference to world time of a whole day or more. -/
  | offset (minutes : Int)
  /-- An integer has more digits than are read. -/
  | integerDigits (digits : Nat)
  /-- An integer has more digits than are written. -/
  | integerShown
  /-- A text is no integer in the given base. -/
  | noInteger (base : Nat) (text : Text)
  /-- A text is no decimal fraction. -/
  | noFraction (text : Text)
  /-- A number with a sign only, or without anything. -/
  | emptyNumeral
  /-- A word is no truth value. -/
  | noTruth (word : Text)
  /-- A text is no date. -/
  | noDate
  /-- A count is infinite. -/
  | infiniteCount
  /-- An integer lies beyond the floating-point numbers. -/
  | integerRange
  /-- A quotient lies beyond the floating-point numbers. -/
  | quotientRange
  /-- A value of this kind holds nothing that could be looked for. -/
  | noContainer (kind : Text)
  /-- Bytes are no text. -/
  | malformedText (defect : Utf8.Malformed)
  /-- A file cannot be read or executed. -/
  | file (fault : FileFault) (path : Text)
  /-- A path holds the character with the number zero. -/
  | nullInPath
  /-- A loader has failed in a way of its own: what the failure is called, and what it says. -/
  | loading (kind text : Text)

namespace Fault

/-- What is said about integers with too many digits. -/
def digitLimit (detail : Text) : Text :=
  "Exceeds the limit (4300 digits) for integer string conversion" ++ detail ++
    "; use sys.set_int_max_str_digits() to increase the limit"

/-- What a fault is in words. -/
def message : Fault → Text
  | year n => "year " ++ Text.ofNat n ++ " is out of range"
  | datePart part => part.describe
  | offset minutes =>
    "offset must be a timedelta strictly between -timedelta(hours=24) and timedelta(hours=24), not " ++
      spanText minutes ++ ['.']
  | integerDigits n => digitLimit (": value has " ++ Text.ofNat n ++ " digits")
  | integerShown => digitLimit []
  | noInteger base t =>
    "invalid literal for int() with base " ++ Text.ofNat base ++ ": " ++ (Text.quoted t).take 200
  | noFraction t => "could not convert string to float: " ++ Text.quoted t
  | emptyNumeral => "string index out of range"
  | noTruth w => Text.quoted w
  | noDate => "'NoneType' object has no attribute 'groupdict'"
  | infiniteCount => "cannot convert float infinity to integer"
  | integerRange => "int too large to convert to float"
  | quotientRange => "integer division result too large for a float"
  | noContainer kind => "argument of type '" ++ kind ++ "' is not iterable"
  | malformedText m => m.message
  | file f path => f.message path
  | nullInPath => "embedded null byte"
  | loading _ text => text

end Fault

/-- An integer in decimal digits, unless it has too many of them. -/
def shownInt (i : Int) : Except Fault Text :=
  let t := Text.ofInt i
  if t.length > Numeral.maxDigits + (if i < 0 then 1 else 0) then .error .integerShown else .ok t

end ScriptAudit
