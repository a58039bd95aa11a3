import ScriptAudit.Yaml.Tag

/-!
# Nodes of a YAML document

A document is a tree of scalars, sequences and mappings. A reference to a node that is complete
has become a copy of it; a reference to a node around it stays a reference.
-/

namespace ScriptAudit.Yaml

/-- A node of a document, with its type. -/
inductive Node
  /-- A text. -/
  | scalar (tag : Tag) (text : Text)
  /-- Nodes in order. -/
  | sequence (tag : Tag) (items : List Node)
  /-- Pairs of a key and a value in order. -/
  | mapping (tag : Tag) (entries : List (Node × Node))
  /-- A reference to a sequence or mapping that holds this node. -/
  | enclosing (isMapping : Bool)

namespace Node

mutual

/-- The number of collections inside each other. -/
def depth : Node → Nat
  | scalar _ _ => 0
  | sequence _ items => depthItems items + 1
  | mapping _ entries => depthEntries entries + 1
  | enclosing _ => 0

/-- The greatest depth of a list of nodes. -/
def depthItems : List Node → Nat
  | [] => 0
  | n :: ns => max n.depth (depthItems ns)

/-- The greatest depth of the nodes of a mapping. -/
def depthEntries : List (Node × Node) → Nat
  | [] => 0
  | (k, v) :: es => max (max k.depth v.depth) (depthEntries es)

end

/-- The type of a node. -/
def tag : Node → Tag
  | scalar t _ => t
  | sequence t _ => t
  | mapping t _ => t
  | enclosing isMapping => if isMapping then .map else .seq

end Node

end ScriptAudit.Yaml
