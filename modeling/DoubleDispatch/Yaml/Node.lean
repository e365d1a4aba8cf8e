import DoubleDispatch.Yaml.Quoted
import DoubleDispatch.Yaml.Scalar

/-!
# Nodes of YAML

What the text of a document spells, before its scalars are told apart.
-/

namespace DoubleDispatch.Yaml

/-- A node of a document. -/
inductive Node where
  | plain (s : String)
  | quoted (s : String)
  | list (nodes : List Node)
  | table (fields : List (String × Node))
  | tagged (tag : String) (node : Node)
deriving Repr, Inhabited

namespace Node

/-- The name of a tag of the core schema. -/
def coreTag? (tag : String) : Option String :=
  match tag.toList with
  | '!' :: '!' :: name => some (String.ofList name)
  | _ => none

mutual

/-- What a node stands for; none if it has a tag that does not fit or is not known. Of the fields
of a table with the same key, the last one counts. -/
def value? : Node → Option LayerValue
  | plain s => some (plainValue s)
  | quoted s => some (.text s)
  | list nodes => (values? nodes).map .list
  | table fields => (fieldValues? [] fields).map .table
  | tagged tag node => (coreTag? tag).bind fun name ↦
    match node with
    | plain s | quoted s => taggedValue? name s
    | node => value? node

/-- What the nodes of a list stand for. -/
def values? : List Node → Option (List LayerValue)
  | [] => some []
  | node :: nodes => do return (← value? node) :: (← values? nodes)

/-- What the fields of a table stand for, behind those before them. -/
def fieldValues? (before : List (String × LayerValue)) :
    List (String × Node) → Option (List (String × LayerValue))
  | [] => some before
  | (key, node) :: fields => do
    fieldValues? (LayerValue.setField before key (← value? node)) fields

end

end Node

end DoubleDispatch.Yaml
