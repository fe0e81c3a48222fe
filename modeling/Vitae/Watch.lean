import Vitae.CommandLine.Run

namespace Vitae.Watch

variable {m : Type → Type} [Monad m]

def source : Job.Error → String
  | .profile e => e.message
  | .directory cause | .write _ cause => cause.message
  | .build e => e.message

def message : Job.Error → String
  | .profile e => "profile: " ++ e.message
  | .directory cause | .write _ cause => cause.message
  | .build e => "compile: " ++ e.message

def rebuild (host : Host m) (transport : BuildService.Transport m) (s : Settings) (path : Path) :
    ExceptT Job.Error m Path := do
  let d ← ExceptT.adapt .profile (Profile.load host path)
  let source := s.layout.render d
  let output := outputPath (some path) s.output s.multiple s.extension
  if let some above := output.parent?.filter (!·.chars.isEmpty) then
    ExceptT.adapt .directory (.mk (host.makeDirectories above))
  if s.texOnly then
    ExceptT.adapt (.write output) (.mk (host.writeFile output (String.ofList source).toUTF8))
  else
    let _ ← ExceptT.adapt .build (BuildService.buildTo host transport s.endpoint source output)
  return output

/-! ## Watching files -/

/-- What tells of changes. A file is told of by the path that `resolve` gives, however an input spells it. -/
structure Watcher (m : Type → Type) where
  resolve : Path → m Path
  start : Path → m (Except String Unit)
  events : List (m (Except String (List Path)))

structure Tracked where
  known : Path
  input : Path

/-- Starts to watch inputs. The last one stands first, so that of two spellings of a file it is the one
found. -/
def track (watcher : Watcher m) (tracked : List Tracked) : List Path → ExceptT String m (List Tracked)
  | [] => return tracked
  | input :: inputs => do
    let known ← watcher.resolve input
    ExceptT.mk (watcher.start known)
    track watcher (⟨known, input⟩ :: tracked) inputs

def handle (host : Host m) (transport : BuildService.Transport m) (resolve : Path → m Path) (s : Settings)
    (tracked : List Tracked) : List Path → m (List (Path × Except Job.Error Path))
  | [] => return []
  | changed :: more => do
    let known ← resolve changed
    match tracked.find? (·.known == known) with
    | none => handle host transport resolve s tracked more
    | some file => do
      let result ← (rebuild host transport s file.input).run
      let results ← handle host transport resolve s tracked more
      return (file.input, result) :: results

def follow (host : Host m) (transport : BuildService.Transport m) (resolve : Path → m Path) (s : Settings)
    (tracked : List Tracked) : List (m (Except String (List Path))) → ExceptT String m Unit
  | [] => throw "receiving on a closed channel"
  | event :: events => do
    let changed ← ExceptT.mk event
    let _ ← ExceptT.lift (handle host transport resolve s tracked changed)
    follow host transport resolve s tracked events

def run (host : Host m) (transport : BuildService.Transport m) (watcher : Watcher m) (s : Settings)
    (files : List Path) : m CommandLine.Outcome := do
  let watched : ExceptT String m Unit := do
    let tracked ← track watcher [] files
    follow host transport watcher.resolve s tracked watcher.events
  match ← watched.run with
  | .error reason => return CommandLine.failed "" ("watch failed: " ++ reason)
  | .ok () => return ⟨0, "", ""⟩

end Vitae.Watch
