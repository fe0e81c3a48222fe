import Vitae.CommandLine.Arguments

namespace Vitae.CommandLine

structure Outcome where
  exit : UInt8
  output : String
  errors : String
  deriving DecidableEq, Repr

def versionText : String :=
  "texcv 0.1.0\n"

def notice (text : String) : String :=
  "[texcv] " ++ text ++ "\n"

def failed (output message : String) : Outcome :=
  ⟨1, output, notice message⟩

inductive Plan where
  | list
  | watch (settings : Settings) (files : List Path)
  | standardInput (settings : Settings)
  | jobs (settings : Settings) (inputs : List Input)

def Invocation.settings (i : Invocation) (layout : Layout) : Settings where
  layout := layout
  output := i.output
  multiple := 1 < i.inputs.length
  texOnly := i.tex
  endpoint := i.endpoint.getD BuildService.defaultEndpoint

def Plan.ofInvocation (i : Invocation) : Except String Plan :=
  if i.listLayouts then .ok .list
  else if i.inputs.isEmpty && i.watch then .error "watch mode requires at least one input file"
  else if 1 < i.inputs.length && (i.output.bind Path.extension?).isSome then
    .error "multiple input files require output directory path"
  else match Layout.ofId i.layout with
    | .error e => .error e.message
    | .ok layout =>
      let settings := i.settings layout
      if i.watch then .ok (.watch settings i.inputs)
      else if i.seed then .ok (.jobs settings [.sample])
      else if i.inputs.isEmpty then .ok (.standardInput settings)
      else .ok (.jobs settings (i.inputs.map .file))

def padRight (width : Nat) (s : String) : String :=
  s ++ String.ofList (List.replicate (width - s.length) ' ')

def layoutLine (l : Layout) : String :=
  padRight 11 l.id ++ " " ++ l.displayName ++ " (" ++ l.description ++ ")\n"

def writtenLine (w : Job.Written) : String :=
  "written " ++ w.path.toString ++ " (" ++ toString w.size ++ " bytes)\n"

def jobMessage (input : Input) : Job.Error → String
  | .profile e =>
    match input with
    | .text _ => "stdin: " ++ e.message
    | .file _ | .sample => e.message
  | .directory cause => "create output dir: " ++ cause.message
  | .write path cause => "write " ++ path.toString ++ ": " ++ cause.message
  | .build e => "compile failed: " ++ e.message

variable {m : Type → Type} [Monad m]

def runJobs (host : Host m) (transport : BuildService.Transport m) (s : Settings)
    (inputs : List Input) : m Outcome := do
  let (written, failure) ← Job.runAll host transport s inputs
  let output := String.join (written.map writtenLine)
  match failure with
  | none => return ⟨0, output, ""⟩
  | some (input, e) => return failed output (jobMessage input e)

/-- Does what a call is to do. `standardInput` gives the bytes of standard input or tells why there are none,
and `watch` stays with files that are to be watched. -/
def Plan.run (host : Host m) (transport : BuildService.Transport m)
    (standardInput : m (Except String ByteArray)) (watch : Settings → List Path → m Outcome) :
    Plan → m Outcome
  | .list => return ⟨0, String.join (Layout.all.map layoutLine), ""⟩
  | .watch s files => watch s files
  | .standardInput s => do
    match ← standardInput with
    | .error message => return failed "" message
    | .ok bytes =>
      match String.fromUTF8? bytes with
      | none => return failed "" FileError.notText.message
      | some text => runJobs host transport s [.text text.toList]
  | .jobs s inputs => runJobs host transport s inputs

def usage : String :=
  "Usage: texcv [OPTIONS] [INPUTS]...\n"

def run (host : Host m) (transport : BuildService.Transport m)
    (standardInput : m (Except String ByteArray)) (watch : Settings → List Path → m Outcome)
    (endpoint : Option String) (arguments : List String) : m Outcome :=
  match Invocation.ofArguments arguments with
  | .error (.usage e) => return ⟨2, "", "error: " ++ e.message ++ "\n\n" ++ usage⟩
  | .error .help => return ⟨0, usage, ""⟩
  | .error .version => return ⟨0, versionText, ""⟩
  | .ok i =>
    match Plan.ofInvocation { i with endpoint := i.endpoint <|> endpoint } with
    | .error message => return failed "" message
    | .ok plan => plan.run host transport standardInput watch

end Vitae.CommandLine
