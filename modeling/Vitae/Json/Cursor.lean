import Vitae.Profile.Problem

/-!
# Reading JSON from left to right

A `Cursor` is what is left of a text, and how much of it was read: lines, and bytes on the last of them. A
`Reader` moves it on or fails at a position. A fault of the notation is found either behind the last byte
that was read, or by looking at the byte in front, which then counts as read (`failHere`, `failAhead`).
-/

namespace Vitae.Json

inductive Fault where
  | endInList
  | endInObject
  | endInString
  | endInValue
  | colonExpected
  | listCommaExpected
  | objectCommaExpected
  | identExpected
  | valueExpected
  | invalidEscape
  | invalidNumber
  | numberOutOfRange
  | controlCharacter
  | keyNotString
  | loneSurrogate
  | hexEscapeCut
  | trailingComma
  | trailingCharacters
  deriving DecidableEq, Repr

def Fault.message : Fault → String
  | .endInList => "EOF while parsing a list"
  | .endInObject => "EOF while parsing an object"
  | .endInString => "EOF while parsing a string"
  | .endInValue => "EOF while parsing a value"
  | .colonExpected => "expected \x60:\x60"
  | .listCommaExpected => "expected \x60,\x60 or \x60]\x60"
  | .objectCommaExpected => "expected \x60,\x60 or \x60\x7d\x60"
  | .identExpected => "expected ident"
  | .valueExpected => "expected value"
  | .invalidEscape => "invalid escape"
  | .invalidNumber => "invalid number"
  | .numberOutOfRange => "number out of range"
  | .controlCharacter => "control character (\\u0000-\\u001F) found while parsing a string"
  | .keyNotString => "key must be a string"
  | .loneSurrogate => "lone leading surrogate in hex escape"
  | .hexEscapeCut => "unexpected end of hex escape"
  | .trailingComma => "trailing comma"
  | .trailingCharacters => "trailing characters"

structure Position where
  line : Nat
  column : Nat
  deriving DecidableEq, Repr

namespace Position

def start : Position := ⟨1, 0⟩

def after (p : Position) (c : Char) : Position :=
  if c = '\n' then ⟨p.line + 1, 0⟩ else ⟨p.line, p.column + c.utf8Size⟩

def afterByte (p : Position) (c : Char) : Position :=
  if c = '\n' then ⟨p.line + 1, 0⟩ else ⟨p.line, p.column + 1⟩

/-- The position behind some bytes of a text, which may end within a character. -/
def afterBytes (p : Position) : Nat → List Char → Position
  | _, [] => p
  | n, c :: s =>
    if c.utf8Size ≤ n then (p.after c).afterBytes (n - c.utf8Size) s
    else ⟨p.line, p.column + n⟩

end Position

inductive Cause where
  | fault (f : Fault)
  | problem (p : Profile.Problem)
  deriving DecidableEq, Repr

structure Failure where
  cause : Cause
  position : Position
  deriving DecidableEq, Repr

def wording : Profile.Wording where
  null := "null"
  floats := ⟨some (-5), some 15, true⟩

def Cause.message : Cause → String
  | .fault f => f.message
  | .problem p => p.message wording

def Failure.message (f : Failure) : String :=
  f.cause.message ++ " at line " ++ toString f.position.line ++ " column " ++
    toString f.position.column

structure Cursor where
  rest : List Char
  position : Position
  deriving DecidableEq, Repr

namespace Cursor

def ofText (s : List Char) : Cursor :=
  ⟨s, .start⟩

def head? (c : Cursor) : Option Char :=
  c.rest.head?

def advance (c : Cursor) : Cursor :=
  match c.rest with
  | [] => c
  | x :: s => ⟨s, c.position.after x⟩

def skipWhile (keep : Char → Bool) (c : Cursor) : Cursor :=
  go c.position c.rest
where
  go (p : Position) : List Char → Cursor
    | [] => ⟨[], p⟩
    | x :: s => if keep x then go (p.after x) s else ⟨x :: s, p⟩

def ahead (c : Cursor) : Position :=
  match c.rest with
  | [] => c.position
  | x :: _ => c.position.afterByte x

end Cursor

abbrev Reader (α : Type) := StateT Cursor (Except Failure) α

namespace Reader

variable {α : Type}

def failHere (cause : Cause) : Reader α :=
  fun c => .error ⟨cause, c.position⟩

def failAhead (fault : Fault) : Reader α :=
  fun c => .error ⟨.fault fault, c.ahead⟩

def peek? : Reader (Option Char) :=
  fun c => .ok (c.head?, c)

def advance : Reader Unit :=
  fun c => .ok ((), c.advance)

def isSpace (c : Char) : Bool :=
  c = ' ' || c = '\n' || c = '\t' || c = '\r'

def nextPart? : Reader (Option Char) :=
  fun c =>
    let c := c.skipWhile isSpace
    .ok (c.head?, c)

def takeAll (keep : Char → Bool) : Reader (List Char) :=
  fun c => .ok (c.rest.takeWhile keep, c.skipWhile keep)

def colon : Reader Unit := do
  match ← nextPart? with
  | some ':' => advance
  | some _ => failAhead .colonExpected
  | none => failAhead .endInObject

def remaining : Reader Nat :=
  fun c => .ok (c.rest.length, c)

end Reader

end Vitae.Json
