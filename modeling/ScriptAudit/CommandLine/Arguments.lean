import ScriptAudit.CommandLine.Usage
import ScriptAudit.Number.Numeral
import ScriptAudit.Text.Quoted

/-!
# Reading the command line

`Level.read` reads the arguments of one level of the command line. First each argument is found to
be a name, the mark `--` that ends the names, or a plain text; then names take the texts that they
expect, and the operand takes those that it expects from what is left. Whatever nobody takes is
kept apart.
-/

namespace ScriptAudit.CommandLine

/-- Why the command line is not carried out. -/
inductive Stop
  /-- Help is asked for. -/
  | help (level : Level)
  /-- The command line is not well formed. -/
  | misuse (level : Level) (message : Text)

/-- What is given with a parameter. -/
inductive Value
  | present
  | text (value : Text)
  | number (value : Float)
  | texts (values : List Text)

/-- A name on the command line. -/
structure Mention where
  /-- The parameter that is meant; none when no parameter has this name. -/
  parameter : Option Parameter
  /-- The full name. -/
  name : Text
  /-- What is written in the same argument. -/
  attached : Option Text := none
  /-- Whether it is written after an equals sign. -/
  afterSign : Bool := false

/-- What an argument is. -/
inductive Mark
  /-- A plain text. -/
  | plain
  /-- The end of the names. -/
  | ending
  /-- A name. -/
  | name (mention : Mention)

/-- Whether an argument is a plain text. -/
def Mark.isPlain : Mark → Bool
  | plain => true
  | _ => false

/-- Whether an argument is a name. -/
def Mark.isName : Mark → Bool
  | name _ => true
  | _ => false

/-- An argument and what it is. -/
abbrev Item := Text × Mark

/-- What has been read. -/
structure Reading where
  /-- The arguments that the operand has taken. -/
  operand : Option (List Text) := none
  /-- The parameters that are given, the last one first. -/
  given : List (Parameter × Value) := []
  /-- The arguments that nobody has taken. -/
  unknown : List Text := []

namespace Level

/-! ## What an argument is -/

/-- The parameters under each of their names. -/
def named (l : Level) : List (Text × Parameter) :=
  l.parameters.flatMap fun p => p.names.map fun n => (n, p)

/-- The parameter of a name. -/
def parameter? (l : Level) (name : Text) : Option Parameter := l.named.lookup name

/-- The text before an equals sign and the text after it, if there is one. -/
def atSign (t : Text) : Text × Option Text :=
  match Text.cut? ['='] t with
  | some (name, value) => (name, some value)
  | none => (t, none)

/-- The names that an argument with two dashes may be short for. -/
def longMentions (l : Level) (t : Text) : List Mention :=
  let (start, value) := atSign t
  (l.named.filter fun (n, _) => start.isPrefixOf n).map fun (n, p) =>
    ⟨some p, n, value, value.isSome⟩

/-- The names that an argument with one dash may be short for, or may begin with. -/
def shortMentions (l : Level) (t : Text) : List Mention :=
  l.named.filterMap fun (n, p) =>
    if n = t.take 2 then some ⟨some p, n, some (t.drop 2), false⟩
    else if t.isPrefixOf n then some ⟨some p, n, none, false⟩
    else none

/-- Whether an argument is a negative number, with a line feed after it or not. -/
def isNegativeNumber (t : Text) : Bool :=
  match t with
  | '-' :: number =>
    let number := if number.getLast? = some '\n' then number.dropLast else number
    let whole := number.takeWhile isDecimal
    match number.drop whole.length with
    | [] => !whole.isEmpty
    | '.' :: fraction => !fraction.isEmpty && fraction.all isDecimal
    | _ => false
  | _ => false

/-- What an argument before the mark `--` is. -/
def mark (l : Level) (t : Text) : Except Stop Mark :=
  match t with
  | '-' :: second :: _ =>
    let (start, value) := atSign t
    match l.parameter? t, l.parameter? start with
    | some p, _ => .ok (.name ⟨some p, t, none, false⟩)
    | none, some p => .ok (.name ⟨some p, start, value, true⟩)
    | none, none =>
      match if second = '-' then l.longMentions t else l.shortMentions t with
      | [m] => .ok (.name m)
      | [] =>
        if isNegativeNumber t || t.any (· == ' ') then .ok .plain
        else .ok (.name ⟨none, t, none, false⟩)
      | ms =>
        .error (.misuse l ("ambiguous option: ".toList ++ t ++ " could match ".toList ++
          Text.joinWith ", " (ms.map Mention.name)))
  | _ => .ok .plain

/-- What each argument is. -/
def marks (l : Level) : List Text → Except Stop (List Item)
  | [] => .ok []
  | t :: ts =>
    if t = ['-', '-'] then .ok ((t, .ending) :: ts.map fun t => (t, .plain))
    else do return (t, ← l.mark t) :: (← l.marks ts)

/-! ## What parameters take -/

/-- The complaint about a parameter. -/
def complain {α : Type} (l : Level) (p : Parameter) (message : Text) : Except Stop α :=
  .error (.misuse l
    ("argument ".toList ++ Text.joinWith ['/'] p.names ++ ": ".toList ++ message))

/-- The value that some texts give to a parameter. -/
def valueOf (l : Level) (p : Parameter) (texts : List Text) : Except Stop Value :=
  let t := texts.headD []
  match p.expects with
  | .nothing => .ok .present
  | .help => .error (.help l)
  | .word => .ok (.text t)
  | .words => .ok (.texts texts)
  | .number =>
    match Numeral.float? t with
    | some x => .ok (.number x)
    | none => l.complain p ("invalid float value: ".toList ++ Text.quoted t)
  | .oneOf choices =>
    if choices.contains t then .ok (.text t)
    else
      l.complain p ("invalid choice: ".toList ++ Text.quoted t ++ " (choose from ".toList ++
        Text.joinWith ", " (choices.map Text.quoted) ++ [')'])

/-- Takes note of a parameter with the texts that it has taken. -/
def note (l : Level) (p : Parameter) (texts : List Text) (r : Reading) : Except Stop Reading := do
  return { r with given := (p, ← l.valueOf p texts) :: r.given }

/-- The number of items that a parameter takes from those that follow it. -/
def wanted (l : Level) (p : Parameter) (following : List Item) : Except Stop Nat :=
  match p.expects with
  | .nothing | .help => .ok 0
  | .words => .ok (following.takeWhile fun i => i.2.isPlain).length
  | _ =>
    if (following.head?.map fun i => i.2.isPlain).getD false then .ok 1
    else l.complain p "expected one argument"

/-- Takes note of a parameter with the items that follow it, and tells how many it takes. -/
def takeFollowing (l : Level) (p : Parameter) (following : List Item) (r : Reading) :
    Except Stop (Reading × Nat) := do
  let n ← l.wanted p following
  return (← l.note p ((following.take n).map Prod.fst) r, n)

/-- Whether nothing may be attached to a parameter. -/
def standsAlone (p : Parameter) : Bool :=
  match p.expects with
  | .nothing | .help => true
  | _ => false

/-- The names of one letter that are written together in one argument: the parameters that stand
alone, and then either the last one with what is attached to it, or the rest of the argument, which
is no name. `attached` is what follows the name of `p`. -/
def cluster (l : Level) (p : Parameter) (name : Text) (afterSign : Bool) :
    (attached : Text) → Except Stop (List Parameter × (Parameter × Option Text ⊕ Text))
  | [] =>
    if standsAlone p then l.complain p ("ignored explicit argument ".toList ++ Text.quoted [])
    else .ok ([], .inl (p, some []))
  | c :: rest =>
    if !standsAlone p then .ok ([], .inl (p, some (c :: rest)))
    else if "--".toList.isPrefixOf name || afterSign || c = '-' then
      l.complain p ("ignored explicit argument ".toList ++ Text.quoted (c :: rest))
    else
      match l.parameter? ['-', c] with
      | none => .ok ([p], .inr ('-' :: c :: rest))
      | some q =>
        match rest with
        | [] => .ok ([p], .inl (q, none))
        | '=' :: value => do
          let (ps, last) ← l.cluster q ['-', c] true value
          return (p :: ps, last)
        | d :: more => do
          let (ps, last) ← l.cluster q ['-', c] false (d :: more)
          return (p :: ps, last)

/-- Takes note of a name and of what it takes, and tells how many of the following items that
are. -/
def takeName (l : Level) (m : Mention) (written : Text) (following : List Item) (r : Reading) :
    Except Stop (Reading × Nat) :=
  match m.parameter, m.attached with
  | none, _ => .ok ({ r with unknown := r.unknown ++ [written] }, 0)
  | some p, none => l.takeFollowing p following r
  | some p, some attached => do
    let (alone, last) ← l.cluster p m.name m.afterSign attached
    match last with
    | .inr rest =>
      let r := { r with unknown := r.unknown ++ [rest] }
      return (← alone.foldlM (fun r p => l.note p [] r) r, 0)
    | .inl (q, none) =>
      let n ← l.wanted q following
      let r ← alone.foldlM (fun r p => l.note p [] r) r
      return (← l.note q ((following.take n).map Prod.fst) r, n)
    | .inl (q, some t) =>
      let r ← alone.foldlM (fun r p => l.note p [] r) r
      return (← l.note q [t] r, 0)

/-! ## What the operand takes -/

/-- The number of items at the front that the operand takes: the end of the names does not count
as an operand, but goes with one. -/
def operandCount (o : Operand) (items : List Item) : Nat :=
  let endings := (items.takeWhile fun i => !i.2.isPlain && !i.2.isName).length
  match items.drop endings with
  | (_, .plain) :: rest =>
    match o with
    | .command _ => items.length
    | .one _ _ => endings + 1 + (rest.takeWhile fun i => !i.2.isPlain && !i.2.isName).length
  | _ => 0

/-- Lets the operand take what it expects from the front of some items, and tells how many these
are. -/
def takeOperand (l : Level) (items : List Item) (r : Reading) : Reading × Nat :=
  match l.operand, r.operand with
  | some o, none =>
    match operandCount o items with
    | 0 => (r, 0)
    | n => ({ r with operand := some ((items.take n).map Prod.fst) }, n)
  | _, _ => (r, 0)

/-- Reads items one after the other, as long as there is a name among them; what then is left goes
to the operand or to nobody. -/
def readItems (l : Level) (items : List Item) (r : Reading) : Except Stop Reading :=
  if (items.any fun i => i.2.isName) then
    match items with
    | [] => .ok r
    | (written, .name m) :: following => do
      let (r, n) ← l.takeName m written following r
      l.readItems (following.drop n) r
    | first :: following =>
      let (r, n) := l.takeOperand (first :: following) r
      if n = 0 then
        l.readItems following { r with unknown := r.unknown ++ [first.1] }
      else l.readItems (following.drop (n - 1)) r
  else
    let (r, n) := l.takeOperand items r
    .ok { r with unknown := r.unknown ++ (items.drop n).map Prod.fst }
termination_by items.length
decreasing_by all_goals (simp only [List.length_drop, List.length_cons]; omega)

/-- Reads the arguments of a level. -/
def read (l : Level) (arguments : List Text) : Except Stop Reading := do
  let r ← l.readItems (← l.marks arguments) {}
  match l.operand, r.operand with
  | some (.one name _), none =>
    throw (.misuse l ("the following arguments are required: ".toList ++ name))
  | _, _ => return r

end Level

end ScriptAudit.CommandLine
