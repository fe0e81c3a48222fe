import Vitae.Path

/-!
# Files

`Host` is what a run needs of the machine it runs on: reading, writing and making directories.
`FileTree` is a tree of files and directories that can stand in for a disk, with the errors a Unix system
gives for paths that lead nowhere, through a file or onto a directory.
-/

namespace Vitae

inductive FileError where
  | notFound
  | notDirectory
  | isDirectory
  | alreadyExists
  | nameTooLong
  | nulInPath
  | notText
  | other (text : String)
  deriving DecidableEq, Repr

def FileError.message : FileError → String
  | .notFound => "No such file or directory (os error 2)"
  | .notDirectory => "Not a directory (os error 20)"
  | .isDirectory => "Is a directory (os error 21)"
  | .alreadyExists => "File exists (os error 17)"
  | .nameTooLong => "File name too long (os error 36)"
  | .nulInPath => "file name contained an unexpected NUL byte"
  | .notText => "stream did not contain valid UTF-8"
  | .other text => text

structure Host (m : Type → Type) where
  readFile : Path → m (Except FileError ByteArray)
  writeFile : Path → ByteArray → m (Except FileError Unit)
  makeDirectory : Path → m (Except FileError Unit)
  isDirectory : Path → m Bool

namespace Host

variable {m : Type → Type} [Monad m]

def makeAll (h : Host m) : List Path → m (Except FileError Unit)
  | [] => pure (.ok ())
  | p :: ps => do
    match ← h.makeAll ps with
    | .error e => pure (.error e)
    | .ok () =>
      match ← h.makeDirectory p with
      | .error .alreadyExists =>
        if ← h.isDirectory p then pure (.ok ()) else pure (.error .alreadyExists)
      | r => pure r

/-- Goes up a list of paths until one can be made or is there, and makes those below it. `missing` holds the
paths passed on the way. -/
def makeFrom (h : Host m) : List Path → List Path → m (Except FileError Unit)
  | [], missing => h.makeAll missing
  | p :: ps, missing => do
    match ← h.makeDirectory p with
    | .ok () => h.makeAll missing
    | .error .notFound => h.makeFrom ps (missing ++ [p])
    | .error .alreadyExists =>
      if ← h.isDirectory p then h.makeAll missing else pure (.error .alreadyExists)
    | .error e => pure (.error e)

def makeDirectories (h : Host m) (p : Path) : m (Except FileError Unit) :=
  h.makeFrom p.ancestors []

def readText (h : Host m) (p : Path) : m (Except FileError String) := do
  match ← h.readFile p with
  | .error e => pure (.error e)
  | .ok bytes =>
    match String.fromUTF8? bytes with
    | some s => pure (.ok s)
    | none => pure (.error .notText)

end Host

/-! ## A tree in memory -/

abbrev Location := List Path.Piece

-- Other libraries bring instances of their own.
instance decidableEqBytes : DecidableEq ByteArray :=
  ByteArray.instDecidableEq

inductive Entry where
  | directory
  | file (content : ByteArray)
  deriving DecidableEq

structure FileTree where
  entries : List (Location × Entry)
  current : Location

namespace FileTree

def entry? (t : FileTree) (l : Location) : Option Entry :=
  if l.isEmpty then some .directory else t.entries.lookup l

def file? (t : FileTree) (l : Location) : Option ByteArray :=
  match t.entry? l with
  | some (.file content) => some content
  | _ => none

def put (t : FileTree) (l : Location) (e : Entry) : FileTree :=
  { t with entries := (l, e) :: t.entries.filter (·.1 != l) }

/-- The pieces of a path that lead somewhere. A slash at the end asks for a directory, as a dot does. -/
def steps (p : Path) : List Path.Piece :=
  let named := (Path.cut p.chars).filter (!·.isEmpty)
  if p.chars.getLast? == some '/' && !named.isEmpty then named ++ [['.']] else named

def checkPath (p : Path) : Except FileError Unit :=
  if p.chars.contains '\x00' then .error .nulInPath
  else if p.chars.isEmpty then .error .notFound
  else if 4096 ≤ p.toString.utf8ByteSize then .error .nameTooLong
  else .ok ()

def requireDirectory (t : FileTree) (l : Location) : Except FileError Unit :=
  match t.entry? l with
  | some .directory => .ok ()
  | some (.file _) => .error .notDirectory
  | none => .error .notFound

def step (t : FileTree) (l : Location) (piece : Path.Piece) : Except FileError Location := do
  t.requireDirectory l
  if piece = ['.'] then pure l
  else if piece = ['.', '.'] then pure l.dropLast
  else if 255 < (String.ofList piece).utf8ByteSize then throw .nameTooLong
  else pure (l ++ [piece])

def start (t : FileTree) (p : Path) : Location :=
  if p.isAbsolute then [] else t.current

def locate (t : FileTree) (p : Path) : Except FileError Location := do
  checkPath p
  (steps p).foldlM t.step (t.start p)

def locateLast (t : FileTree) (p : Path) : Except FileError (Location × Option Path.Piece) := do
  checkPath p
  let named := (Path.cut p.chars).filter (!·.isEmpty)
  let above ← named.dropLast.foldlM t.step (t.start p)
  t.requireDirectory above
  pure (above, named.getLast?)

def readFile (t : FileTree) (p : Path) : Except FileError ByteArray := do
  let l ← t.locate p
  match t.entry? l with
  | some (.file content) => pure content
  | some .directory => throw .isDirectory
  | none => throw .notFound

def isDots (piece : Path.Piece) : Bool :=
  piece == ['.'] || piece == ['.', '.']

/-- A file is made where there is none; a name with a slash behind it asks for a directory. -/
def writeFile (t : FileTree) (p : Path) (content : ByteArray) : Except FileError FileTree := do
  let (above, last?) ← t.locateLast p
  match last? with
  | none => throw .isDirectory
  | some piece =>
    if isDots piece || p.chars.getLast? == some '/' then throw .isDirectory
    let l ← t.step above piece
    match t.entry? l with
    | some .directory => throw .isDirectory
    | _ => pure (t.put l (.file content))

def makeDirectory (t : FileTree) (p : Path) : Except FileError FileTree := do
  let (above, last?) ← t.locateLast p
  match last? with
  | none => throw .alreadyExists
  | some piece =>
    if isDots piece then throw .alreadyExists
    let l ← t.step above piece
    match t.entry? l with
    | some _ => throw .alreadyExists
    | none => pure (t.put l .directory)

def isDirectory (t : FileTree) (p : Path) : Bool :=
  match t.locate p with
  | .ok l => t.entry? l == some .directory
  | .error _ => false

def attempt (change : FileTree → Except FileError FileTree) :
    StateM FileTree (Except FileError Unit) := fun t =>
  match change t with
  | .ok t' => (.ok (), t')
  | .error e => (.error e, t)

def host : Host (StateM FileTree) where
  readFile p := fun t => (t.readFile p, t)
  writeFile p content := attempt (·.writeFile p content)
  makeDirectory p := attempt (·.makeDirectory p)
  isDirectory p := fun t => (t.isDirectory p, t)

end FileTree

end Vitae
