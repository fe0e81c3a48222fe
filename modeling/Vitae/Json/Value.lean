import Vitae.Profile.Shape
import Vitae.Text.Quoted

namespace Vitae

inductive Json where
  | null
  | bool (b : Bool)
  | integer (n : Int)
  | string (s : List Char)
  | array (items : List Json)
  | object (members : List (List Char × Json))
  deriving Repr, Inhabited

namespace Json

def controlEscape (c : Char) : List Char :=
  let digits := Text.hexDigits c.toNat
  '\\' :: 'u' :: (List.replicate (4 - digits.length) '0' ++ digits)

def escapedChar (c : Char) : List Char :=
  match c with
  | '"' => ['\\', '"']
  | '\\' => ['\\', '\\']
  | '\n' => ['\\', 'n']
  | '\r' => ['\\', 'r']
  | '\t' => ['\\', 't']
  | '\x08' => ['\\', 'b']
  | '\x0c' => ['\\', 'f']
  | c => if c.toNat < 0x20 then controlEscape c else [c]

def encodeString (s : List Char) : List Char :=
  '"' :: (s.flatMap escapedChar ++ ['"'])

mutual

def compact : Json → List Char
  | .null => "null".toList
  | .bool true => "true".toList
  | .bool false => "false".toList
  | .integer n => (toString n).toList
  | .string s => encodeString s
  | .array items => '[' :: (compactItems items ++ [']'])
  | .object members => '\x7b' :: (compactMembers members ++ ['\x7d'])

def compactItems : List Json → List Char
  | [] => []
  | [item] => item.compact
  | item :: items => item.compact ++ ',' :: compactItems items

def compactMembers : List (List Char × Json) → List Char
  | [] => []
  | [(name, value)] => encodeString name ++ ':' :: value.compact
  | (name, value) :: members =>
    encodeString name ++ ':' :: (value.compact ++ ',' :: compactMembers members)

end

end Json

namespace Profile

mutual

def Shape.toJson : {α : Type} → Shape α → α → Json
  | _, .text => fun s => .string s.toList
  | _, .choice _ name => fun a => .string (name a).toList
  | _, .list item => fun l => .array (l.map item.toJson)
  | _, .keyed _ name item => fun l => .object (l.map fun p => ((name p.1).toList, item.toJson p.2))
  | _, .record _ _ _ fields => fun a => .object (fields.toJson a)
  | _, .mapped shape _ write => fun b => shape.toJson (write b)

def Fields.toJson : {α : Type} → Fields α → α → List (List Char × Json)
  | _, .nil => fun _ => []
  | _, .cons name shape get _ rest => fun a => (name.toList, shape.toJson (get a)) :: rest.toJson a

end

end Profile

end Vitae
