import Vitae.Json.Skip
import Vitae.Profile.Shape

namespace Vitae.Json.Reader

variable {α : Type}

def anotherItem (first : Bool) : Reader Bool := do
  match ← nextPart? with
  | none => failHere (.fault .endInList)
  | some ']' => return false
  | some c =>
    if first then return true
    else if c = ',' then
      advance
      match ← nextPart? with
      | some ']' => failAhead .trailingComma
      | some _ => return true
      | none => failHere (.fault .endInValue)
    else failAhead .listCommaExpected

def endOfList : Reader Unit := do
  match ← nextPart? with
  | some ']' => advance
  | some ',' => do
    advance
    match ← nextPart? with
    | some ']' => failAhead .trailingComma
    | _ => failAhead .trailingCharacters
  | some _ => failAhead .trailingCharacters
  | none => failHere (.fault .endInList)

def anotherName (first : Bool) : Reader Bool := do
  match ← nextPart? with
  | none => failHere (.fault .endInObject)
  | some '\x7d' => return false
  | some c =>
    if first then
      if c = '"' then return true else failAhead .keyNotString
    else if c = ',' then
      advance
      match ← nextPart? with
      | some '"' => return true
      | some '\x7d' => failAhead .trailingComma
      | some _ => failAhead .keyNotString
      | none => failHere (.fault .endInValue)
    else failAhead .objectCommaExpected

def name : Reader (List Char) := do
  advance
  stringTail

/-- A name that does not fit is found only when the object was tried to be closed. -/
def failAtName (p : Profile.Problem) : Reader α := do
  if (← nextPart?) == some '\x7d' then advance
  failHere (.problem p)

def text : Reader String := do
  match ← nextPart? with
  | none => failHere (.fault .endInValue)
  | some '"' => do advance; return String.ofList (← stringTail)
  | some _ => wrongKind "a string"

def chosen (all : List α) (label : α → String) (s : List Char) : Reader α :=
  match all.find? (fun a => (label a).toList == s) with
  | some a => return a
  | none => failHere (.problem (.unknownVariant s (all.map label)))

def choice (all : List α) (label : α → String) : Reader α := do
  match ← nextPart? with
  | none => failHere (.fault .endInValue)
  | some '"' => do advance; chosen all label (← stringTail)
  | some '\x7b' => do
    advance
    match ← nextPart? with
    | none => failHere (.fault .endInValue)
    | some '"' => do
      let a ← do advance; chosen all label (← stringTail)
      colon
      match ← nextPart? with
      | none => failHere (.fault .endInValue)
      | some 'n' => ident ['n', 'u', 'l', 'l']
      | some _ => wrongKind "unit"
      match ← nextPart? with
      | some '\x7d' => do advance; return a
      | some _ => failHere (.fault .valueExpected)
      | none => failHere (.fault .endInObject)
    | some _ => wrongKind "variant identifier"
  | some _ => failAhead .valueExpected

def items (item : Reader α) (first : Bool) : Nat → Reader (List α)
  | 0 => return []
  | n + 1 => do
    if ← anotherItem first then
      let a ← item
      let rest ← items item false n
      return a :: rest
    else return []

def list (item : Reader α) : Reader (List α) := do
  match ← nextPart? with
  | none => failHere (.fault .endInValue)
  | some '[' => do
    advance
    let l ← items item true ((← remaining) + 1)
    endOfList
    return l
  | some _ => wrongKind "a sequence"

def entries {κ : Type} (key : List Char → Reader κ) (item : Reader α) (first : Bool) :
    Nat → Reader (List (κ × α))
  | 0 => return []
  | n + 1 => do
    if ← anotherName first then
      let k ← key (← name)
      colon
      let a ← item
      let rest ← entries key item false n
      return (k, a) :: rest
    else return []

def keyed {κ : Type} (key : List Char → Reader κ) (item : Reader α) : Reader (List (κ × α)) := do
  match ← nextPart? with
  | none => failHere (.fault .endInValue)
  | some '\x7b' => do
    advance
    let l ← entries key item true ((← remaining) + 1)
    advance
    return l
  | some _ => wrongKind "a map"

abbrev FieldReaders (α : Type) := List (String × (α → Reader α))

def fieldsInOrder : FieldReaders α → Bool → α → Reader α
  | [], _, a => return a
  | (_, set) :: fields, first, a => do
    if ← anotherItem first then fieldsInOrder fields false (← set a) else return a

/-- The fields of a record from an object, in any order. A field may stand once; a closed record has no
unknown ones, and those of an open record are gone over. -/
def fieldsByName (fields : FieldReaders α) (closed first : Bool) (seen : List (List Char)) (a : α) :
    Nat → Reader α
  | 0 => return a
  | n + 1 => do
    if ← anotherName first then
      let s ← name
      match fields.find? (fun f => f.1.toList == s) with
      | some (_, set) =>
        if seen.contains s then failAtName (.duplicateField s)
        else
          colon
          fieldsByName fields closed false (s :: seen) (← set a) n
      | none =>
        if closed then failAtName (.unknownField s (fields.map (·.1)))
        else
          colon
          skipValue
          fieldsByName fields closed false seen a n
    else return a

def record (label : String) (closed : Bool) (fields : FieldReaders α) (empty : α) : Reader α := do
  match ← nextPart? with
  | none => failHere (.fault .endInValue)
  | some '[' => do
    advance
    let a ← fieldsInOrder fields true empty
    endOfList
    return a
  | some '\x7b' => do
    advance
    let a ← fieldsByName fields closed true [] empty ((← remaining) + 1)
    advance
    return a
  | some _ => wrongKind ("struct " ++ label)

end Vitae.Json.Reader

namespace Vitae.Profile

open Json (Reader)

mutual

def Shape.readJson : {α : Type} → Shape α → Reader α
  | _, .text => Reader.text
  | _, .choice all name => Reader.choice all name
  | _, .list item => Reader.list item.readJson
  | _, .keyed all name item => Reader.keyed (Reader.chosen all name) item.readJson
  | _, .record name closed empty fields => Reader.record name closed fields.readJson empty
  | _, .mapped shape read _ => do return read (← shape.readJson)

def Fields.readJson : {α : Type} → Fields α → Reader.FieldReaders α
  | _, .nil => []
  | _, .cons name shape _ set rest =>
    (name, fun a => do return set a (← shape.readJson)) :: rest.readJson

end

def Shape.ofJsonText {α : Type} (shape : Shape α) (s : List Char) : Except Json.Failure α := do
  let (a, c) ← shape.readJson (.ofText s)
  let c := c.skipWhile Reader.isSpace
  if c.rest.isEmpty then return a else throw ⟨.fault .trailingCharacters, c.ahead⟩

end Vitae.Profile
