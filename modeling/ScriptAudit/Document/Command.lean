import ScriptAudit.Document.Variable

/-!
# Commands

A command is a line that begins with a keyword. `Command.ofLine?` reads its clauses: a target, a
condition after `When`, a name after `Using` and a variable after `Into`, and two flags. Letters
are compared without regard to case.
-/

namespace ScriptAudit

/-! ## Keywords -/

/-- The keywords of commands. -/
inductive Keyword
  | get
  | post
  | create
  | modify
  | patch
  | delete
  | query
  | batch
  | action
  | modifyBlob
  | patchBlob
  | modifyClob
  | eval
  | applyJson
  | copyJson
  | removeJson
  | assertJson
  | assert
  | print
  | call
  | output
  | executeCsv
  | iterateArray
  | delay
  | requireMinVersion
  | connect
  deriving DecidableEq

namespace Keyword

/-- All keywords. -/
def all : List Keyword :=
  [get, post, create, modify, patch, delete, query, batch, action, modifyBlob, patchBlob,
    modifyClob, eval, applyJson, copyJson, removeJson, assertJson, assert, print, call, output,
    executeCsv, iterateArray, delay, requireMinVersion, connect]

/-- A keyword as it is written. -/
def name : Keyword → Text
  | get => "Get"
  | post => "Post"
  | create => "Create"
  | modify => "Modify"
  | patch => "Patch"
  | delete => "Delete"
  | query => "Query"
  | batch => "Batch"
  | action => "Action"
  | modifyBlob => "ModifyBlob"
  | patchBlob => "PatchBlob"
  | modifyClob => "ModifyClob"
  | eval => "Eval"
  | applyJson => "ApplyJson"
  | copyJson => "CopyJson"
  | removeJson => "RemoveJson"
  | assertJson => "AssertJson"
  | assert => "Assert"
  | print => "Print"
  | call => "Call"
  | output => "Output"
  | executeCsv => "ExecuteCSV"
  | iterateArray => "IterateArray"
  | delay => "Delay"
  | requireMinVersion => "RequireMinVersion"
  | connect => "Connect"

/-- The keywords that call a server. -/
def serverCalls : List Keyword :=
  [get, post, create, modify, patch, delete, query, batch, action, modifyBlob, patchBlob,
    modifyClob]

/-- Whether a keyword calls a server. -/
def isServerCall (k : Keyword) : Bool := serverCalls.elem k

/-- Whether a keyword asserts something. -/
def isAssert (k : Keyword) : Bool := k == assert || k == assertJson

/-- Whether a keyword has a target. -/
def hasTarget (k : Keyword) : Bool := k.isServerCall || k == call

/-- What follows a keyword that the text begins with as a whole word. -/
def after? (k : Keyword) (t : Text) : Option Text := do
  let rest ← Text.afterKeyword? k.name t
  if rest.head?.any isWord then none else return rest

/-- The keyword that a text begins with. -/
def ofText? (t : Text) : Option Keyword := all.find? fun k => (k.after? t).isSome

end Keyword

/-! ## Clauses -/

/-- A command with its clauses. -/
structure Command where
  keyword : Keyword
  text : Text
  line : Nat
  target : Option Text
  into : Option Text
  using_ : Option Text
  condition : Option Text
  catchesError : Bool
  expectsFailure : Bool
  body : Option Text
  deriving DecidableEq

namespace Command

/-- The further names after a name, each with the dot before it. -/
def dottedNames : Text → Text
  | '.' :: c :: t =>
    if isWord c then
      let name := c :: t.takeWhile isWord
      '.' :: name ++ dottedNames (t.dropWhile isWord)
    else []
  | _ => []
termination_by t => t.length
decreasing_by
  simp only [List.length_cons]
  have := (List.dropWhile_suffix (p := isWord) (l := t)).length_le
  omega

/-- Finds `Using`, blanks and dotted names, and gives the names. -/
def usingClause : Recogniser Text := fun before t => do
  if !Text.wordStarts before then none
  let rest ← Text.afterKeyword? "Using" t
  let blanks := rest.takeWhile isBlank
  let rest := rest.drop blanks.length
  let name := rest.takeWhile isWord
  if blanks.isEmpty || name.isEmpty then none
  else
    let names := name ++ dottedNames (rest.drop name.length)
    return (names, 5 + blanks.length + names.length)

/-- Whether a condition may end here: at the end of the text, or before blanks and a word that
begins with `Into` or `Using`. -/
def endsCondition (t : Text) : Bool :=
  let rest := Text.trimLeft t
  t.isEmpty || t == ['\n'] ||
    (rest.length < t.length &&
      ((Text.afterKeyword? "Into" rest).isSome || (Text.afterKeyword? "Using" rest).isSome))

/-- The shortest beginning of a line, not empty, after which a condition may end. -/
def conditionFrom? : Text → Option Text
  | [] => none
  | c :: cs =>
    if c = '\n' then none
    else if endsCondition cs then some [c]
    else (conditionFrom? cs).map (c :: ·)

/-- Finds a condition after blanks; the more blanks stand before it, the better. -/
def conditionAfter? : (blanks : Text) → Text → Option Text
  | [], _ => none
  | _ :: bs, rest => (conditionAfter? bs rest) <|> conditionFrom? (bs ++ rest)

/-- Finds `When`, blanks and a condition, and gives the condition. -/
def whenClause : Recogniser Text := fun before t => do
  if !Text.wordStarts before then none
  let rest ← Text.afterKeyword? "When" t
  let blanks := rest.takeWhile isBlank
  let condition ← conditionAfter? blanks (rest.drop blanks.length)
  return (condition, 4)

/-- The flags that may stand between a keyword and its target. -/
def isFlag (word : Text) : Bool :=
  Text.afterKeyword? "CatchError" word == some [] || Text.afterKeyword? "ExpectFail" word == some []

/-- The target among the words after the keyword: the first one that is no flag. When all are
flags, the last one is the target. -/
def targetAmong? : List Text → Option Text
  | [] => none
  | [w] => some w
  | w :: ws => if isFlag w then targetAmong? ws else some w

/-- The target of a command. -/
def targetOf? (k : Keyword) (t : Text) : Option Text := do
  if !k.hasTarget then none
  let rest ← Text.afterKeyword? k.name t
  if rest.head?.any isBlank then targetAmong? (Text.words rest) else none

/-- Reads a line. It is no command unless it begins with a keyword. -/
def ofLine? (t : Text) (line : Nat) : Option Command := do
  let k ← Keyword.ofText? t
  let condition := (whenClause.first? t).map Text.trim
  return {
    keyword := k
    text := t
    line
    target := targetOf? k t
    into := (Text.wordAfter "Into").first? t
    using_ := usingClause.first? t
    condition := condition.filter (!·.isEmpty)
    catchesError := (Text.wholeWord "CatchError").found t
    expectsFailure := (Text.wholeWord "ExpectFail").found t
    body := none }

end Command

end ScriptAudit
