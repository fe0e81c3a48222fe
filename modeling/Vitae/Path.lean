import Vitae.Text.Split

namespace Vitae

structure Path where
  chars : List Char
  deriving DecidableEq, Repr, Inhabited

namespace Path

def ofString (s : String) : Path :=
  ⟨s.toList⟩

def toString (p : Path) : String :=
  String.ofList p.chars

abbrev Piece := List Char

def cut (s : List Char) : List Piece :=
  Text.split '/' s

def glue (ps : List Piece) : List Char :=
  Text.joinWith '/' ps

def isAbsolute (p : Path) : Bool :=
  p.chars.head? == some '/'

def isIdle (piece : Piece) : Bool :=
  piece.isEmpty || piece == ['.']

def dropIdle (ps : List Piece) : List Piece :=
  (ps.reverse.dropWhile isIdle).reverse

def pieces (p : Path) : List Piece :=
  dropIdle (cut p.chars)

def fileName? (p : Path) : Option Piece :=
  p.pieces.getLast?.filter (· != ['.', '.'])

/-- A name in front of its last dot and behind it. A dot at the start does not count. -/
def splitName (name : Piece) : Piece × Option Piece :=
  let behind := (name.reverse.takeWhile (· != '.')).reverse
  let front := name.take (name.length - behind.length - 1)
  if behind.length < name.length && !front.isEmpty then (front, some behind) else (name, none)

def extension? (p : Path) : Option Piece :=
  p.fileName?.bind fun n => (splitName n).2

def replaceName (p : Path) (name : Piece) : Path :=
  ⟨glue (p.pieces.dropLast ++ [name])⟩

def dropBytes (budget : Nat) (reversed : List Char) : List Char :=
  match reversed with
  | [] => []
  | c :: s => if c.utf8Size ≤ budget then dropBytes (budget - c.utf8Size) s else c :: s

/-- The path with what stands behind the last dot of its name replaced, or with a dot and the extension put
behind a name that has no dot. A path without a name stays as it is.

The old extension is first taken off by its size, from the end of the whole path; what is left may then be a
path without a name. -/
def withExtension (p : Path) (extension : Piece) : Path :=
  let shortened : Path := match p.extension? with
    | some old => ⟨(dropBytes (String.ofList old).utf8ByteSize p.chars.reverse).reverse⟩
    | none => p
  match shortened.fileName? with
  | some name =>
    let stem := (splitName name).1
    shortened.replaceName (if extension.isEmpty then stem else stem ++ '.' :: extension)
  | none => shortened

def join (p q : Path) : Path :=
  if q.isAbsolute then q
  else if p.chars.isEmpty || p.chars.getLast? == some '/' then ⟨p.chars ++ q.chars⟩
  else ⟨p.chars ++ '/' :: q.chars⟩

def parent? (p : Path) : Option Path :=
  let root : List Char := if p.isAbsolute then ['/'] else []
  match p.pieces with
  | [] => if p.isAbsolute || p.chars.isEmpty then none else some ⟨[]⟩
  | ps =>
    match dropIdle ps.dropLast with
    | [] => some ⟨if ps.dropLast.head? == some ['.'] then ['.'] else root⟩
    | above => some ⟨glue above⟩

def ancestors (p : Path) : List Path :=
  go p p.chars.length
where
  go (p : Path) : Nat → List Path
    | 0 => []
    | n + 1 =>
      match p.parent? with
      | none => []
      | some above => p :: go above n

theorem glue_cut (s : List Char) : glue (cut s) = s :=
  Text.joinWith_split '/' s

end Path

end Vitae
