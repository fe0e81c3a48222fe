import Vitae.Profile.Shape
import Vitae.Yaml.Resolve

namespace Vitae.Yaml

open Profile (Found Problem)

inductive Step where
  | field (name : List Char)
  | index (i : Nat)
  | unnamed
  deriving DecidableEq, Repr

abbrev NodePath := List Step

def pathText : NodePath → List Char
  | [] => ['.']
  | .index i :: above => pathText above ++ '[' :: (Text.decimalDigits i ++ [']'])
  | .field name :: above => (if above.isEmpty then [] else pathText above ++ ['.']) ++ name
  | .unnamed :: above => (if above.isEmpty then [] else pathText above ++ ['.']) ++ ['?']

structure Place where
  path : NodePath
  mark : Mark
  deriving DecidableEq, Repr

inductive Failure where
  | problem (p : Problem) (place : Place)
  | tooManyAliases
  deriving DecidableEq, Repr

def wording : Profile.Wording where
  null := "unit value"
  floats := ⟨none, none, false⟩

def Failure.message : Failure → String
  | .tooManyAliases => "repetition limit exceeded"
  | .problem p place =>
    let path := if place.path.isEmpty then "" else String.ofList (pathText place.path) ++ ": "
    let location :=
      if place.mark = .start then ""
      else " at line " ++ toString (place.mark.line + 1) ++ " column " ++
        toString (place.mark.column + 1)
    path ++ p.message wording ++ location

/-- Reads parts of a tree. The number counts the aliases followed so far. -/
abbrev Reader (α : Type) := ReaderT Tree (StateT Nat (Except Failure)) α

namespace Reader

variable {α : Type}

def fail (p : Problem) (path : NodePath) (mark : Mark) : Reader α :=
  throw (.problem p ⟨path, mark⟩)

def follow (node : Node) : Reader Node := do
  match node with
  | .alias _ number => do
    let tree ← read
    modify (· + 1)
    if tree.size * 100 < (← get) then throw .tooManyAliases
    return (tree.anchored.lookup number).getD node
  | _ => return node

def kindProblem (expected : String) : Node → Problem
  | .scalar _ tag plain s =>
    match scalarValue tag plain s with
    | .ok found => .wrongKind found expected
    | .error kind => .wrongValue (.string s) kind
  | .sequence .. => .wrongKind .sequence expected
  | .mapping .. => .wrongKind .map expected
  | .alias .. => .wrongKind .null expected

def wrongKind (expected : String) (path : NodePath) (node : Node) : Reader α :=
  fail (kindProblem expected node) path node.mark

def isNothing : Node → Bool
  | .scalar _ _ plain s => plain && s.isEmpty
  | _ => false

def scalarText (expected : String) (path : NodePath) (node : Node) : Reader (List Char) := do
  match ← follow node with
  | .scalar _ _ _ s => return s
  | other => wrongKind expected path other

def text (path : NodePath) (node : Node) : Reader String := do
  return String.ofList (← scalarText "a string" path node)

/-- The name that a node chooses by its tag: what is behind the exclamation mark, or the mark itself if it
stands alone. A tag that is no text chooses none. -/
def tagged? : Node → Option (List Char)
  | .scalar _ tag _ _ | .sequence _ tag _ | .mapping _ tag _ =>
    match tag.bind Tag.text? with
    | some ['!'] => some ['!']
    | some ('!' :: name) => some name
    | _ => none
  | .alias .. => none

def isUnit : Node → Bool
  | .scalar _ _ plain s => plain && (s.isEmpty || isNull s)
  | _ => false

def unitProblem : Node → Problem
  | .scalar _ _ _ s => .wrongKind (.string s) "unit"
  | node => kindProblem "unit" node

def chosen (all : List α) (label : α → String) (s : List Char) (place : Place) : Reader α :=
  match all.find? (fun a => (label a).toList == s) with
  | some a => return a
  | none => throw (.problem (.unknownVariant s (all.map label)) place)

/-- One of a few values: by a scalar that is its name, or by a tag next to a null value. An unknown name of a
tag is told with the place of the node around, or of the alias. -/
def choice (all : List α) (label : α → String) (around : Place) (path : NodePath) (node : Node) :
    Reader α := do
  let target ← follow node
  let around := match node with
    | .alias mark _ => ⟨path, mark⟩
    | _ => around
  match tagged? target, target with
  | some name, _ => do
    let a ← chosen all label name around
    if isUnit target then return a else fail (unitProblem target) path target.mark
  | none, .scalar mark _ _ s => chosen all label s ⟨path, mark⟩
  | none, .mapping mark _ _ => fail (.wrongKind .map "a YAML tag starting with '!'") path mark
  | none, other => fail (.wrongKind .sequence "a YAML tag starting with '!'") path other.mark

abbrev NodeReader (α : Type) := Place → NodePath → Node → Reader α

def items (item : NodeReader α) (around : Place) : Nat → List Node → Reader (List α)
  | _, [] => return []
  | i, node :: nodes => do
    let a ← item around (.index i :: around.path) node
    return a :: (← items item around (i + 1) nodes)

def list (item : NodeReader α) (path : NodePath) (node : Node) : Reader (List α) := do
  match ← follow node with
  | .sequence mark _ nodes => items item ⟨path, mark⟩ 0 nodes
  | other => if isNothing other then return [] else wrongKind "a sequence" path other

def stepTo : Node → Step
  | .scalar _ _ _ s => .field s
  | _ => .unnamed

def entries {κ : Type} (key : NodeReader κ) (item : NodeReader α) (around : Place) :
    List (Node × Node) → Reader (List (κ × α))
  | [] => return []
  | (k, v) :: pairs => do
    let a ← key around around.path k
    let b ← item around (stepTo k :: around.path) v
    return (a, b) :: (← entries key item around pairs)

def keyed {κ : Type} (key : NodeReader κ) (item : NodeReader α) (path : NodePath) (node : Node) :
    Reader (List (κ × α)) := do
  match ← follow node with
  | .mapping mark _ pairs => entries key item ⟨path, mark⟩ pairs
  | other => if isNothing other then return [] else wrongKind "a map" path other

abbrev FieldReaders (α : Type) := List (String × (α → NodeReader α))

def nameMark (node : Node) : Reader Mark := do
  match node with
  | .alias _ number => return (((← read).anchored.lookup number).getD node).mark
  | _ => return node.mark

def fields (known : FieldReaders α) (closed : Bool) (around : Place) :
    List (List Char) → α → List (Node × Node) → Reader α
  | _, a, [] => return a
  | seen, a, (k, v) :: pairs => do
    let s ← scalarText "field identifier" around.path k
    match known.find? (fun f => f.1.toList == s) with
    | some (_, set) =>
      if seen.contains s then throw (.problem (.duplicateField s) around)
      else
        let a ← set a around (stepTo k :: around.path) v
        fields known closed around (s :: seen) a pairs
    | none =>
      if closed then fail (.unknownField s (known.map (·.1))) around.path (← nameMark k)
      else fields known closed around seen a pairs

def record (label : String) (closed : Bool) (known : FieldReaders α) (empty : α) (path : NodePath)
    (node : Node) : Reader α := do
  match ← follow node with
  | .mapping mark _ pairs => fields known closed ⟨path, mark⟩ [] empty pairs
  | other => if isNothing other then return empty else wrongKind ("struct " ++ label) path other

end Reader

end Vitae.Yaml

namespace Vitae.Profile

open Yaml (Reader)

mutual

def Shape.readYaml : {α : Type} → Shape α → Reader.NodeReader α
  | _, .text => fun _ path node => Reader.text path node
  | _, .choice all name => fun around path node => Reader.choice all name around path node
  | _, .list item => fun _ path node => Reader.list item.readYaml path node
  | _, .keyed all name item => fun _ path node =>
    Reader.keyed (Reader.choice all name) item.readYaml path node
  | _, .record name closed empty fields => fun _ path node =>
    Reader.record name closed fields.readYaml empty path node
  | _, .mapped shape read _ => fun around path node => do
    return read (← shape.readYaml around path node)

def Fields.readYaml : {α : Type} → Fields α → Reader.FieldReaders α
  | _, .nil => []
  | _, .cons name shape _ set rest =>
    (name, fun a around path node => do return set a (← shape.readYaml around path node)) ::
      rest.readYaml

end

def Shape.ofYamlTree {α : Type} (shape : Shape α) (empty : α) (tree : Yaml.Tree) :
    Except Yaml.Failure α :=
  match tree.root with
  | none => .ok empty
  | some root => do
    let (a, _) ← (shape.readYaml ⟨[], root.mark⟩ [] root).run tree |>.run 0
    return a

end Vitae.Profile
