import Vitae.FileTree
import Vitae.Json.Read
import Vitae.Profile.Format
import Vitae.Profile.Schema
import Vitae.Yaml.Read

namespace Vitae.Profile

open Text

inductive Error where
  | unreadable (path : Path) (cause : FileError)
  | json (failure : Json.Failure)
  | malformedYaml (cause : Yaml.Malformed)
  | yaml (failure : Yaml.Failure)
  deriving DecidableEq

def Error.message : Error → String
  | .unreadable path cause => "failed to read " ++ path.toString ++ ": " ++ cause.message
  | .json failure => Format.json.name ++ " parse error: " ++ failure.message
  | .malformedYaml cause => Format.yaml.name ++ " parse error: " ++ cause.message
  | .yaml failure => Format.yaml.name ++ " parse error: " ++ failure.message

def parseYaml (text : List Char) : Except Error Document := do
  let tree ← (Yaml.Tree.ofText text).mapError .malformedYaml
  (Shape.document.ofYamlTree {} tree).mapError .yaml

def parse (format : Format) (text : List Char) : Except Error Document :=
  let text := Format.dropMarks text
  if allBlank text then .ok {}
  else match format with
    | .json => (Shape.document.ofJsonText text).mapError .json
    | .yaml => parseYaml text

def load {m : Type → Type} [Monad m] (host : Host m) (path : Path) : ExceptT Error m Document := do
  match ← host.readText path with
  | .error cause => throw (.unreadable path cause)
  | .ok text => parse (Format.detect (some path) text.toList) text.toList

end Vitae.Profile
