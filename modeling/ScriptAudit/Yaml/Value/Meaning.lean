import ScriptAudit.Yaml.Value.Scalar
import ScriptAudit.Yaml.Node

/-!
# What nodes mean

`Node.value?` gives the value of a node. The contents of a collection are looked at only after
everything outside it: of several parts that have no value the one that is least deep, and of
these the first one, says why the whole has none. In a mapping the pairs of merged mappings come
first and give way to its own pairs.
-/

namespace ScriptAudit.Yaml

namespace Node

/-! ## Merging -/

mutual

/-- The pairs that are merged into a mapping, and its own pairs, among which a key `=` is an
ordinary key. -/
def split? : List (Node × Node) → Option (List (Node × Node) × List (Node × Node))
  | [] => some ([], [])
  | (k, v) :: es => do
    let (lent, own) ← split? es
    match k.tag with
    | .merge => return ((← source? v) ++ lent, own)
    | .value =>
      match k with
      | scalar _ t => return (lent, (scalar .str t, v) :: own)
      | k => return (lent, (k, v) :: own)
    | _ => return (lent, (k, v) :: own)

/-- The pairs that a value of the key `<<` contributes. -/
def source? : Node → Option (List (Node × Node))
  | mapping _ es => do
    let (lent, own) ← split? es
    return lent ++ own
  | sequence _ items => sources? items
  | enclosing isMapping => if isMapping then some [] else none
  | scalar _ _ => none

/-- The pairs of several mappings; those of later mappings come first. -/
def sources? : List Node → Option (List (Node × Node))
  | [] => some []
  | mapping _ es :: ns => do
    let (lent, own) ← split? es
    return (← sources? ns) ++ (lent ++ own)
  | enclosing true :: ns => sources? ns
  | _ :: _ => none

end

/-- The pairs of a mapping after merging. -/
def merged? (es : List (Node × Node)) : Option (List (Node × Node)) :=
  (split? es).map fun (lent, own) => lent ++ own

/-! ## Looking at nodes -/

/-- Whether nodes of a type have contents that are looked at later. -/
def isCollectionTag (t : Tag) : Bool :=
  t == .seq || t == .map || t == .set || t == .omap || t == .pairs

mutual

/-- The text of a node that is used as a scalar: of a mapping it is the value of the key `=`. -/
def scalarText? : Node → Option Text
  | scalar _ t => some t
  | sequence _ _ => none
  | mapping _ es => valueEntry? es
  | enclosing _ => none

/-- The text under the key `=`. -/
def valueEntry? : List (Node × Node) → Option Text
  | [] => none
  | (k, v) :: es => if k.tag = .value then v.scalarText? else valueEntry? es

end

/-- The value of a node that is used as a scalar. A time is read from the node itself, which has no
text when it is a mapping. -/
def scalarValue (n : Node) : Except Refusal Value :=
  match n, n.scalarText? with
  | _, none => .error .unsuitable
  | mapping .timestamp _, some _ => .error (.fault noTimeText)
  | n, some t => Value.ofScalar n.tag t
where
  /-- What is said about a mapping in place of a time. -/
  noTimeText : Fault :=
    .loading "TypeError" "expected string or bytes-like object, got 'list'"

/-- Looks at a node without its contents, and gives the collections to look into later. What has the
type of a collection is taken for one until its contents are looked at. -/
def inspect (n : Node) : Except Refusal (List Node) :=
  match n with
  | enclosing _ => .ok []
  | n => if isCollectionTag n.tag then .ok [n] else n.scalarValue.map fun _ => []

/-- Looks at a pair; a key is a scalar. -/
def inspectPair (e : Node × Node) : Except Refusal (List Node) := do
  match ← e.1.inspect, e.1 with
  | [], enclosing _ => .error .unsuitable
  | [], _ => e.2.inspect
  | _, _ => .error .unsuitable

/-- Looks at an item that stands for one pair, whose key may be a collection. -/
def inspectItem : Node → Except Refusal (List Node)
  | mapping _ [(k, v)] => do return (← k.inspect) ++ (← v.inspect)
  | _ => .error .unsuitable

/-- Looks into a collection. -/
def contents : Node → Except Refusal (List Node)
  | sequence .seq items => return (← items.mapM inspect).flatten
  | sequence .omap items => return (← items.mapM inspectItem).flatten
  | sequence .pairs items => return (← items.mapM inspectItem).flatten
  | mapping .map entries => pairs entries
  | mapping .set entries => pairs entries
  | _ => .error .unsuitable
where
  /-- Looks at the pairs of a mapping after merging. -/
  pairs (entries : List (Node × Node)) : Except Refusal (List Node) :=
    match merged? entries with
    | some es => return (← es.mapM inspectPair).flatten
    | none => .error .unsuitable

/-- Looks into collections, level by level. -/
def inspectLevels : (fuel : Nat) → List Node → Except Refusal Unit
  | 0, _ => .ok ()
  | fuel + 1, ns => do
    if ns.isEmpty then return ()
    inspectLevels fuel (← ns.mapM contents).flatten

/-! ## Values -/

/-- The value of a node that has been looked at, down to a depth. -/
def valueTo : (depth : Nat) → Node → Value
  | 0, _ => .null
  | d + 1, n =>
    let entries (es : List (Node × Node)) : List (Value × Value) :=
      ((merged? es).getD []).foldl (fun vs e => Value.put (valueTo d e.1) (valueTo d e.2) vs) []
    let asScalar : Value := n.scalarValue.toOption.getD .null
    let item : Node → Value
      | mapping _ [(k, v)] => .pair (valueTo d k) (valueTo d v)
      | _ => .null
    match n with
    | scalar _ _ => asScalar
    | sequence .seq items => .list (items.map (valueTo d))
    | sequence .omap items => .list (items.map item)
    | sequence .pairs items => .list (items.map item)
    | sequence _ _ => asScalar
    | mapping .map es => .map (entries es)
    | mapping .set es => .set ((entries es).map Prod.fst)
    | mapping _ _ => asScalar
    | enclosing isMapping => .enclosing isMapping

/-- The value of a node. -/
def value? (n : Node) : Except Refusal Value := do
  inspectLevels (n.depth + 1) (← n.inspect)
  return n.valueTo (n.depth + 1)

end Node

end ScriptAudit.Yaml
