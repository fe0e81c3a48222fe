import Vitae.Path

namespace Vitae

def outputPath (input output : Option Path) (multiple : Bool) (extension : Path.Piece) : Path :=
  match output, input with
  | some directory, some input =>
    if multiple then (directory.join ⟨input.fileName?.getD []⟩).withExtension extension
    else directory
  | some path, none => path
  | none, some input => input.withExtension extension
  | none, none => (Path.ofString "resume").withExtension extension

end Vitae
