import Vitae.Number.Shortest
import Vitae.Text.Quoted

namespace Vitae.Profile

inductive Floating where
  | finite (negative : Bool) (magnitude : Binary64)
  | infinite (negative : Bool)
  | undefined
  deriving DecidableEq, Repr

inductive Found where
  | null
  | bool (b : Bool)
  | integer (n : Int)
  | wideInteger (n : Int)
  | float (x : Floating)
  | string (s : List Char)
  | sequence
  | map
  deriving DecidableEq, Repr

inductive Problem where
  | wrongKind (found : Found) (expected : String)
  | wrongValue (found : Found) (expected : String)
  | unknownField (name : List Char) (known : List String)
  | unknownVariant (name : List Char) (known : List String)
  | duplicateField (name : List Char)
  deriving DecidableEq, Repr

structure Wording where
  null : String
  floats : FloatStyle

def Floating.text (style : FloatStyle) : Floating → List Char
  | .finite negative x => (if negative then ['-'] else []) ++ x.shortest.text style
  | .infinite negative => (if negative then ['-'] else []) ++ "inf".toList
  | .undefined => "NaN".toList

def marked (s : List Char) : String :=
  String.ofList ('\x60' :: (s ++ ['\x60']))

def Found.text (w : Wording) : Found → String
  | .null => w.null
  | .bool b => "boolean " ++ marked (if b then "true" else "false").toList
  | .integer n => "integer " ++ marked (toString n).toList
  | .wideInteger n =>
    "integer " ++ marked (toString n).toList ++ (if n < 0 then " as i128" else " as u128")
  | .float x => "floating point " ++ marked (x.text w.floats)
  | .string s => "string " ++ String.ofList (Text.quoted s)
  | .sequence => "sequence"
  | .map => "map"

def oneOf : List String → String
  | [] => ""
  | [a] => marked a.toList
  | [a, b] => marked a.toList ++ " or " ++ marked b.toList
  | names => "one of " ++ String.intercalate ", " (names.map fun n => marked n.toList)

def Problem.message (w : Wording) : Problem → String
  | .wrongKind found expected => "invalid type: " ++ found.text w ++ ", expected " ++ expected
  | .wrongValue found expected => "invalid value: " ++ found.text w ++ ", expected " ++ expected
  | .unknownField name known => "unknown field " ++ marked name ++ ", expected " ++ oneOf known
  | .unknownVariant name known => "unknown variant " ++ marked name ++ ", expected " ++ oneOf known
  | .duplicateField name => "duplicate field " ++ marked name

end Vitae.Profile
