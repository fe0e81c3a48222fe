import Vitae.Text.Utf8

namespace Vitae.Yaml

structure Mark where
  line : Nat
  column : Nat
  bytes : Nat
  deriving DecidableEq, Repr, Inhabited

inductive Fault where
  | forbiddenCharacter
  | unexpectedCharacter
  | colonExpected
  | entryNotAllowed
  | keyNotAllowed
  | valueNotAllowed
  | badDirective
  | duplicateDirective
  | unknownVersion
  | badAnchor
  | badTag
  | unknownHandle
  | unknownAnchor
  | badEscape
  | badBlockHeader
  | tabInIndentation
  | markInScalar
  | scalarNotClosed
  | colonInFlow
  | contentExpected
  | entryExpected
  | keyExpected
  | commaExpected
  | documentStartExpected
  | severalDocuments
  deriving DecidableEq, Repr

def Fault.message : Fault → String
  | .forbiddenCharacter => "control characters are not allowed"
  | .unexpectedCharacter => "found character that cannot start any token"
  | .colonExpected => "could not find expected ':'"
  | .entryNotAllowed => "block sequence entries are not allowed in this context"
  | .keyNotAllowed => "mapping keys are not allowed in this context"
  | .valueNotAllowed => "mapping values are not allowed in this context"
  | .badDirective => "found a directive that is not well formed"
  | .duplicateDirective => "found duplicate directive"
  | .unknownVersion => "found incompatible YAML document"
  | .badAnchor => "did not find expected alphabetic or numeric character"
  | .badTag => "found a tag that is not well formed"
  | .unknownHandle => "found undefined tag handle"
  | .unknownAnchor => "unknown anchor"
  | .badEscape => "found unknown escape character"
  | .badBlockHeader => "found a block scalar header that is not well formed"
  | .tabInIndentation => "found a tab character where an indentation space is expected"
  | .markInScalar => "found unexpected document indicator"
  | .scalarNotClosed => "found unexpected end of stream"
  | .colonInFlow => "found unexpected ':'"
  | .contentExpected => "did not find expected node content"
  | .entryExpected => "did not find expected '-' indicator"
  | .keyExpected => "did not find expected key"
  | .commaExpected => "did not find expected ',' or closing bracket"
  | .documentStartExpected => "did not find expected <document start>"
  | .severalDocuments => "found more than one document"

structure Malformed where
  fault : Fault
  mark : Mark
  deriving DecidableEq, Repr

def Malformed.message (m : Malformed) : String :=
  m.fault.message ++ " at line " ++ toString (m.mark.line + 1) ++ " column " ++
    toString (m.mark.column + 1)

/-! ## Characters -/

def isAllowed (c : Char) : Bool :=
  let n := c.toNat
  n == 0x09 || n == 0x0A || n == 0x0D || (0x20 ≤ n && n ≤ 0x7E) || n == 0x85 ||
    (0xA0 ≤ n && n ≤ 0xFFFD) || 0x10000 ≤ n

/-- A text in which each of the line breaks of one or two characters is a line feed. The line and the
paragraph separator stay as they are. -/
def uniformBreaks : List Char → List Char
  | '\r' :: '\n' :: s => '\n' :: uniformBreaks s
  | '\r' :: s => '\n' :: uniformBreaks s
  | '\u0085' :: s => '\n' :: uniformBreaks s
  | c :: s => c :: uniformBreaks s
  | [] => []

def isBreak (c : Char) : Bool :=
  c == '\n' || c == '\u2028' || c == '\u2029'

def isGap (c : Char) : Bool :=
  c == ' ' || c == '\t'

def isBlankOrBreak (c : Char) : Bool :=
  isGap c || isBreak c

def endsWord (c : Option Char) : Bool :=
  c.all isBlankOrBreak

def isNameChar (c : Char) : Bool :=
  c.isAlphanum || c == '_' || c == '-'

/-! ## What is left to read -/

structure Source where
  rest : List Char
  mark : Mark
  deriving DecidableEq, Repr, Inhabited

def Mark.start : Mark := ⟨0, 0, 0⟩

def Mark.nextLine (m : Mark) : Mark :=
  ⟨m.line + 1, 0, 0⟩

def Mark.after (m : Mark) (c : Char) : Mark :=
  if isBreak c then m.nextLine else ⟨m.line, m.column + 1, m.bytes + c.utf8Size⟩

def Source.span (keep : Char → Bool) (s : Source) : List Char × Source :=
  go s.mark s.rest
where
  go (m : Mark) : List Char → List Char × Source
    | [] => ([], ⟨[], m⟩)
    | c :: r =>
      if keep c then
        let (run, behind) := go (m.after c) r
        (c :: run, behind)
      else ([], ⟨c :: r, m⟩)

def Source.atDocumentMark (s : Source) : Bool :=
  s.mark.column == 0 &&
    (s.rest.take 3 == ['-', '-', '-'] || s.rest.take 3 == ['.', '.', '.']) &&
    endsWord s.rest[3]?

abbrev Scanner (α : Type) := StateT Source (Except Malformed) α

namespace Scanner

variable {α : Type}

def fail (fault : Fault) : Scanner α :=
  fun s => .error ⟨fault, s.mark⟩

def peek? : Scanner (Option Char) :=
  fun s => .ok (s.rest.head?, s)

def peekAt? (n : Nat) : Scanner (Option Char) :=
  fun s => .ok (s.rest[n]?, s)

def advance : Scanner Unit := fun s =>
  match s.rest with
  | [] => .ok ((), s)
  | c :: r => .ok ((), ⟨r, s.mark.after c⟩)

def skip : Nat → Scanner Unit
  | 0 => return ()
  | n + 1 => do
    advance
    skip n

def takeAll (keep : Char → Bool) : Scanner (List Char) :=
  fun s => .ok (s.span keep)

def takeBreak : Scanner (List Char) := do
  match ← peek? with
  | some c =>
    if isBreak c then
      advance
      return [c]
    else return []
  | none => return []

def remaining : Scanner Nat :=
  fun s => .ok (s.rest.length, s)

def restOfLine (fault : Fault) : Scanner Unit := do
  let _ ← takeAll isGap
  if (← peek?) == some '#' then
    let _ ← takeAll (!isBreak ·)
  if (← peek?).any (!isBreak ·) then fail fault
  let _ ← takeBreak

end Scanner

end Vitae.Yaml
