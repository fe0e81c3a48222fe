import Vitae.CommandLine.Run
import Vitae.Watch

namespace Vitae.Program

def numbered (code : UInt32) (text : String) : FileError :=
  .other (text ++ " (os error " ++ toString code ++ ")")

def cause : IO.Error → FileError
  | .noFileOrDirectory .. => .notFound
  | .alreadyExists .. => .alreadyExists
  | .inappropriateType _ 20 _ => .notDirectory
  | .inappropriateType _ 21 _ => .isDirectory
  | .inappropriateType _ code text => numbered code text
  | .permissionDenied _ code text => numbered code text
  | .invalidArgument _ code text => numbered code text
  | .resourceExhausted _ code text => numbered code text
  | e => .other e.toString

def attempt {α : Type} (action : IO α) : IO (Except FileError α) := do
  try
    return .ok (← action)
  catch e =>
    return .error (cause e)

def host : Host IO where
  readFile p := attempt (IO.FS.readBinFile p.toString)
  writeFile p content := attempt (IO.FS.writeBinFile p.toString content)
  makeDirectory p := attempt (IO.FS.createDir p.toString)
  isDirectory p := do
    try
      (← IO.FS.realPath p.toString).isDir
    catch _ =>
      return false

def standardInput : IO (Except String ByteArray) := do
  let input ← IO.getStdin
  if ← input.isTty then
    return .error "no input files given and stdin is a terminal (pass a profile or use --seed)"
  match ← attempt input.readBinToEnd with
  | .ok bytes => return .ok bytes
  | .error e => return .error e.message

def resolve (p : Path) : IO Path := do
  match ← attempt (IO.FS.realPath p.toString) with
  | .ok real => return .ofString real.toString
  | .error _ => return p

/-- Looks at files again and again, and takes one as changed when it has other bytes. -/
partial def watch (settings : Settings) (tracked : List Watch.Tracked)
    (before : List (Path × Option ByteArray)) : IO Unit := do
  IO.sleep 500
  let now ← before.mapM fun (path, content) =>
    return (path, (← host.readFile path).toOption <|> content)
  let changed := ((now.zip before).filter fun (new, old) => new.2 != old.2).map (·.1.1)
  for (path, result) in ← Watch.handle host .down resolve settings tracked changed do
    match result with
    | .ok output => IO.eprintln (path.toString ++ " updated " ++ output.toString)
    | .error e => IO.eprintln (path.toString ++ " rebuild failed: " ++ Watch.message e)
  watch settings tracked now

def watchFiles (settings : Settings) (files : List Path) : IO CommandLine.Outcome := do
  match ← (Watch.track ⟨resolve, fun _ => return .ok (), []⟩ [] files).run with
  | .error reason => return CommandLine.failed "" ("watch failed: " ++ reason)
  | .ok tracked => do
    let known ← files.mapM fun path => return (path, (← host.readFile path).toOption)
    watch settings tracked known
    return ⟨0, "", ""⟩

end Vitae.Program

def main (arguments : List String) : IO UInt32 := do
  let endpoint ← IO.getEnv "TEXCV_COMPILE_URL"
  let outcome ← Vitae.CommandLine.run Vitae.Program.host .down Vitae.Program.standardInput
    Vitae.Program.watchFiles endpoint arguments
  IO.print outcome.output
  IO.eprint outcome.errors
  return outcome.exit.toUInt32
