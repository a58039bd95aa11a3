import ScriptAudit.Yaml.Node
import ScriptAudit.Yaml.Token.Lexer

/-!
# From tokens to nodes

`Document.read?` gives the only document of a text. There may be none; a second one, an unknown
abbreviation in a tag, a reference without an anchor and a repeated anchor are refused.
-/

namespace ScriptAudit.Yaml

/-- The tokens that are left, the anchors so far, and the abbreviations of tags. An anchor has no
node yet while its node is being read; then it is known whether this is a mapping. -/
structure Reader where
  tokens : List Token
  anchors : List (Text × (Bool ⊕ Node)) := []
  handles : List (Text × Text) := [(['!'], ['!']), (['!', '!'], Tag.stem)]

namespace Reader

/-- The reader after the next token. -/
def skip (r : Reader) : Reader := { r with tokens := r.tokens.drop 1 }

/-- Names a node that begins here; a name is given once only. -/
def declare? (r : Reader) (name : Option Text) (isMapping : Bool) : Option Reader :=
  match name with
  | none => some r
  | some n =>
    if (r.anchors.lookup n).isSome then none
    else some { r with anchors := (n, .inl isMapping) :: r.anchors }

/-- Gives a name its node. -/
def define (r : Reader) (name : Option Text) (node : Node) : Reader :=
  match name with
  | none => r
  | some n => { r with anchors := (n, .inr node) :: r.anchors }

/-- The node that a reference stands for. -/
def resolve? (r : Reader) (name : Text) : Option Node :=
  (r.anchors.lookup name).map fun
    | .inl isMapping => .enclosing isMapping
    | .inr node => node

/-- A tag with its abbreviation written out. -/
def fullTag? (r : Reader) (handle suffix : Text) : Option Text :=
  if handle.isEmpty then some suffix else (r.handles.lookup handle).map (· ++ suffix)

/-- What stands in front of a node: its name and its tag. -/
structure Properties where
  name : Option Text := none
  tag : Option Text := none

/-- Reads what stands in front of a node. -/
def properties? (r : Reader) : Option (Properties × Reader) := do
  match r.tokens with
  | .anchor a :: .tag h s :: _ =>
    return (⟨some a, some (← r.fullTag? h s)⟩, r.skip.skip)
  | .tag h s :: .anchor a :: _ =>
    return (⟨some a, some (← r.fullTag? h s)⟩, r.skip.skip)
  | .anchor a :: _ => return (⟨some a, none⟩, r.skip)
  | .tag h s :: _ => return (⟨none, some (← r.fullTag? h s)⟩, r.skip)
  | _ => return ({}, r)

/-- Whether a tag leaves the type open. -/
def isOpen (tag : Option Text) : Bool := tag.all (· == ['!'])

/-- The type of a collection. -/
def collectionTag (tag : Option Text) (default : Tag) : Tag :=
  if isOpen tag then default else (tag.map Tag.ofText).getD default

/-- The type of a scalar: a plain one without a tag, and any one with an open tag, has the type
that its text shows. -/
def scalarTag (tag : Option Text) (style : Style) (text : Text) : Tag :=
  match tag, style with
  | none, .plain => Tag.ofPlain text
  | none, .quoted => .str
  | some t, _ => if t == ['!'] then Tag.ofPlain text else Tag.ofText t

/-- A node without any text. -/
def empty : Node := .scalar .null []

/-- A node of which only the properties are written. -/
def bare (tag : Option Text) : Node :=
  match tag with
  | none => empty
  | some t => .scalar (if t == ['!'] then .str else Tag.ofText t) []

/-- Ends a collection: gives its name a node. -/
def close (r : Reader) (name : Option Text) (node : Node) : Node × Reader :=
  (node, r.define name node)

/-- A node of which only the properties are written; without properties there is none. -/
def bareNode? (p : Properties) (r : Reader) : Option (Node × Reader) :=
  if p.name.isNone && p.tag.isNone then none
  else (r.declare? p.name false).map fun r => r.close p.name (bare p.tag)

mutual

/-- Reads a node. `block` admits block collections, `loose` a sequence whose entries are not
indented. -/
def node? : (fuel : Nat) → (block loose : Bool) → Reader → Option (Node × Reader)
  | 0, _, _, _ => none
  | fuel + 1, block, loose, r =>
    match r.tokens with
    | .alias n :: _ => (r.resolve? n).map fun node => (node, r.skip)
    | _ => do
      let (p, r) ← r.properties?
      let sequence (items : List Node) : Node := .sequence (collectionTag p.tag .seq) items
      let mapping (entries : List (Node × Node)) : Node :=
        .mapping (collectionTag p.tag .map) entries
      match r.tokens with
      | .entry :: _ =>
        if loose then
          let (items, r) ← looseEntries? fuel [] (← r.declare? p.name false)
          return r.close p.name (sequence items)
        else bareNode? p r
      | .scalar t style :: _ =>
        let r ← r.declare? p.name false
        return r.skip.close p.name (.scalar (scalarTag p.tag style t) t)
      | .openBracket :: _ =>
        let (items, r) ← flowItems? fuel true [] (← r.declare? p.name false).skip
        return r.close p.name (sequence items)
      | .openBrace :: _ =>
        let (entries, r) ← flowEntries? fuel true [] (← r.declare? p.name true).skip
        return r.close p.name (mapping entries)
      | .blockSequence :: _ =>
        if block then
          let (items, r) ← blockEntries? fuel [] (← r.declare? p.name false).skip
          return r.close p.name (sequence items)
        else bareNode? p r
      | .blockMapping :: _ =>
        if block then
          let (entries, r) ← blockPairs? fuel [] (← r.declare? p.name true).skip
          return r.close p.name (mapping entries)
        else bareNode? p r
      | _ => bareNode? p r

/-- The entries of a block sequence. -/
def blockEntries? : (fuel : Nat) → List Node → Reader → Option (List Node × Reader)
  | 0, _, _ => none
  | fuel + 1, done, r =>
    match r.tokens with
    | .entry :: .entry :: _ => blockEntries? fuel (empty :: done) r.skip
    | .entry :: .blockEnd :: _ => blockEntries? fuel (empty :: done) r.skip
    | .entry :: _ => do
      let (n, r) ← node? fuel true false r.skip
      blockEntries? fuel (n :: done) r
    | .blockEnd :: _ => some (done.reverse, r.skip)
    | _ => none

/-- The entries of a sequence that is not indented. -/
def looseEntries? : (fuel : Nat) → List Node → Reader → Option (List Node × Reader)
  | 0, _, _ => none
  | fuel + 1, done, r =>
    match r.tokens with
    | .entry :: .entry :: _ => looseEntries? fuel (empty :: done) r.skip
    | .entry :: .key :: _ => looseEntries? fuel (empty :: done) r.skip
    | .entry :: .value :: _ => looseEntries? fuel (empty :: done) r.skip
    | .entry :: .blockEnd :: _ => looseEntries? fuel (empty :: done) r.skip
    | .entry :: _ => do
      let (n, r) ← node? fuel true false r.skip
      looseEntries? fuel (n :: done) r
    | _ => some (done.reverse, r)

/-- A key or a value of a block mapping, which may be empty. -/
def blockPart? : (fuel : Nat) → Reader → Option (Node × Reader)
  | 0, _ => none
  | fuel + 1, r =>
    match r.tokens with
    | .key :: _ => some (empty, r)
    | .value :: _ => some (empty, r)
    | .blockEnd :: _ => some (empty, r)
    | _ => node? fuel true true r

/-- The pairs of a block mapping. -/
def blockPairs? : (fuel : Nat) → List (Node × Node) → Reader → Option (List (Node × Node) × Reader)
  | 0, _, _ => none
  | fuel + 1, done, r =>
    match r.tokens with
    | .key :: _ => do
      let (k, r) ← blockPart? fuel r.skip
      let (v, r) ← match r.tokens with
        | .value :: _ => blockPart? fuel r.skip
        | _ => some (empty, r)
      blockPairs? fuel ((k, v) :: done) r
    | .blockEnd :: _ => some (done.reverse, r.skip)
    | _ => none

/-- The items between square brackets. -/
def flowItems? : (fuel : Nat) → (first : Bool) → List Node → Reader → Option (List Node × Reader)
  | 0, _, _, _ => none
  | fuel + 1, first, done, r =>
    match r.tokens with
    | .closeBracket :: _ => some (done.reverse, r.skip)
    | _ => do
      let r ← if first then some r else
        match r.tokens with
        | .comma :: _ => some r.skip
        | _ => none
      match r.tokens with
      | .closeBracket :: _ => return (done.reverse, r.skip)
      | .key :: _ =>
        let (e, r) ← singlePair? fuel r.skip
        flowItems? fuel false (.mapping .map [e] :: done) r
      | _ =>
        let (n, r) ← node? fuel false false r
        flowItems? fuel false (n :: done) r

/-- A pair that stands as an item between square brackets. After a question mark without a key
one token is passed over. -/
def singlePair? : (fuel : Nat) → Reader → Option ((Node × Node) × Reader)
  | 0, _ => none
  | fuel + 1, r => do
    let (k, r) ← match r.tokens with
      | .value :: _ => some (empty, r.skip)
      | .comma :: _ => some (empty, r.skip)
      | .closeBracket :: _ => some (empty, r.skip)
      | _ => node? fuel false false r
    let (v, r) ← match r.tokens with
      | .value :: .comma :: _ => some (empty, r.skip)
      | .value :: .closeBracket :: _ => some (empty, r.skip)
      | .value :: _ => node? fuel false false r.skip
      | _ => some (empty, r)
    return ((k, v), r)

/-- The pairs between braces. -/
def flowEntries? : (fuel : Nat) → (first : Bool) → List (Node × Node) → Reader →
    Option (List (Node × Node) × Reader)
  | 0, _, _, _ => none
  | fuel + 1, first, done, r =>
    match r.tokens with
    | .closeBrace :: _ => some (done.reverse, r.skip)
    | _ => do
      let r ← if first then some r else
        match r.tokens with
        | .comma :: _ => some r.skip
        | _ => none
      match r.tokens with
      | .closeBrace :: _ => return (done.reverse, r.skip)
      | .key :: rest =>
        let (k, r) ← match rest with
          | .value :: _ => some (empty, r.skip)
          | .comma :: _ => some (empty, r.skip)
          | .closeBrace :: _ => some (empty, r.skip)
          | _ => node? fuel false false r.skip
        let (v, r) ← match r.tokens with
          | .value :: .comma :: _ => some (empty, r.skip)
          | .value :: .closeBrace :: _ => some (empty, r.skip)
          | .value :: _ => node? fuel false false r.skip
          | _ => some (empty, r)
        flowEntries? fuel false ((k, v) :: done) r
      | _ =>
        let (k, r) ← node? fuel false false r
        flowEntries? fuel false ((k, empty) :: done) r

end

/-! ## Documents -/

/-- Reads the directives before a document. -/
def directives? : (version : Bool) → (given : List (Text × Text)) → List Token →
    Option (List (Text × Text) × List Token)
  | version, given, .version major minor :: ts =>
    if version || major != 1 || (minor != 1 && minor != 2) then none else directives? true given ts
  | version, given, .abbreviation h m :: ts =>
    if (given.lookup h).isSome then none else directives? version ((h, m) :: given) ts
  | _, given, ts => some (given, ts)

/-- The root of a document from the tokens after its start. -/
def root? (r : Reader) : Option (Node × Reader) := node? (3 * r.tokens.length + 3) true false r

end Reader

/-- The only document of a text, if the text has one. `none` when the text is refused. -/
def Document.read? (t : Text) : Option (Option Node) := do
  let ts ← tokens? t
  let finish (node : Node) (r : Reader) : Option (Option Node) :=
    if (r.tokens.dropWhile fun | .documentEnd => true | _ => false).isEmpty then some (some node)
    else none
  match ts with
  | [] => return none
  | .documentStart :: _ | .version _ _ :: _ | .abbreviation _ _ :: _ =>
    let (given, ts) ← Reader.directives? false [] ts
    let .documentStart :: ts := ts | none
    let standard : List (Text × Text) := [(['!'], ['!']), (['!', '!'], Tag.stem)]
    let r : Reader := { tokens := ts, handles := given ++ standard }
    match ts with
    | [] | .documentEnd :: _ | .documentStart :: _ | .version _ _ :: _ | .abbreviation _ _ :: _ =>
      finish Reader.empty r
    | _ =>
      let (node, r) ← r.root?
      finish node r
  | _ =>
    let (node, r) ← ({ tokens := ts } : Reader).root?
    finish node r

end ScriptAudit.Yaml
