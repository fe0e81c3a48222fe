import Vitae.Path
import Vitae.Text.Blank

namespace Vitae.Profile

open Text

inductive Format where
  | yaml
  | json
  deriving DecidableEq, Repr, Inhabited

namespace Format

def name : Format → String
  | .yaml => "yaml"
  | .json => "json"

def byteOrderMark : Char := '\uFEFF'

def dropMarks (text : List Char) : List Char :=
  text.dropWhile (· == byteOrderMark)

def startsObject (text : List Char) : Bool :=
  (trimStart (dropMarks text)).head? == some '{'

def isNamedJson (path : Path) : Bool :=
  match path.extension? with
  | some e => e.map Char.toLower == "json".toList
  | none => false

def detect (path : Option Path) (text : List Char) : Format :=
  if path.any isNamedJson || startsObject text then .json else .yaml

end Format

end Vitae.Profile
