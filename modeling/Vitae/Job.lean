import Vitae.BuildService
import Vitae.Document.Sample
import Vitae.Layout.Catalogue
import Vitae.Output
import Vitae.Profile.Parse

namespace Vitae

variable {m : Type → Type} [Monad m]

/-! ## Without an output file -/

inductive RenderError where
  | layout (e : UnknownLayout)
  | profile (e : Profile.Error)
  | build (e : BuildService.Error)
  deriving DecidableEq

def RenderError.source : RenderError → String
  | .layout e => e.message
  | .profile e => e.message
  | .build e => e.message

def RenderError.message : RenderError → String
  | .layout e => "layout: " ++ e.message
  | .profile e => "profile: " ++ e.message
  | .build e => "compile: " ++ e.message

/-- The source for a profile file in the layout of an id. The id is looked up before the file is read. -/
def renderProfile (host : Host m) (path : Path) (layoutId : String) : ExceptT RenderError m Tex := do
  match Layout.ofId layoutId with
  | .error e => throw (.layout e)
  | .ok layout => do
    let d ← ExceptT.adapt .profile (Profile.load host path)
    return layout.render d

def buildDocument (transport : BuildService.Transport m) (endpoint : String) (layout : Layout)
    (d : Document) : ExceptT RenderError m ByteArray :=
  ExceptT.adapt .build (BuildService.build transport endpoint (layout.render d))

/-! ## Jobs -/

structure Settings where
  layout : Layout := .classic
  output : Option Path := none
  multiple : Bool := false
  texOnly : Bool := false
  endpoint : String := BuildService.defaultEndpoint

def Settings.extension (s : Settings) : Path.Piece :=
  (if s.texOnly then "tex" else "pdf").toList

inductive Input where
  | file (path : Path)
  | text (s : List Char)
  | sample
  deriving DecidableEq

def Input.path? : Input → Option Path
  | .file path => some path
  | .text _ | .sample => none

namespace Job

inductive Error where
  | profile (e : Profile.Error)
  | directory (cause : FileError)
  | write (path : Path) (cause : FileError)
  | build (e : BuildService.Error)
  deriving DecidableEq

structure Written where
  path : Path
  size : Nat
  deriving DecidableEq, Repr

def document (host : Host m) : Input → ExceptT Profile.Error m Document
  | .file path => Profile.load host path
  | .text s => Profile.parse (Profile.Format.detect none s) s
  | .sample => return .sample

def output (s : Settings) (input : Input) : Path :=
  outputPath input.path? s.output s.multiple s.extension

def makeRoom (host : Host m) (path : Path) : ExceptT Error m Unit := do
  match path.parent? with
  | none => return ()
  | some directory =>
    if directory.chars.isEmpty then return ()
    else
      match ← host.makeDirectories directory with
      | .error cause => throw (.directory cause)
      | .ok () => return ()

def writeOutput (host : Host m) (transport : BuildService.Transport m) (s : Settings) (path : Path)
    (source : Tex) : ExceptT Error m Nat := do
  if s.texOnly then
    let bytes := (String.ofList source).toUTF8
    match ← host.writeFile path bytes with
    | .error cause => throw (.write path cause)
    | .ok () => return bytes.size
  else
    let pdf ← ExceptT.adapt .build (BuildService.buildTo host transport s.endpoint source path)
    return pdf.size

def run (host : Host m) (transport : BuildService.Transport m) (s : Settings) (input : Input) :
    ExceptT Error m Written := do
  let d ← ExceptT.adapt .profile (document host input)
  let path := output s input
  makeRoom host path
  let size ← writeOutput host transport s path (s.layout.render d)
  return ⟨path, size⟩

def runAll (host : Host m) (transport : BuildService.Transport m) (s : Settings) :
    List Input → m (List Written × Option (Input × Error))
  | [] => return ([], none)
  | input :: inputs => do
    match ← (run host transport s input).run with
    | .error e => return ([], some (input, e))
    | .ok w => do
      let (ws, failure) ← runAll host transport s inputs
      return (w :: ws, failure)

end Job

end Vitae
