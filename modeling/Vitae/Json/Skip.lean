import Vitae.Json.Scalar

/-!
# Values that nobody reads

The value of an unknown field is gone over without a limit on its depth: the brackets that are open are kept
in a list, innermost first. Its notation is checked, though less closely than that of a value that is read.
-/

namespace Vitae.Json.Reader

inductive Bracket where
  | list
  | object
  deriving DecidableEq, Repr

namespace Bracket

def closing : Bracket → Char
  | .list => ']'
  | .object => '\x7d'

def atEnd : Bracket → Fault
  | .list => .endInList
  | .object => .endInObject

def noComma : Bracket → Fault
  | .list => .listCommaExpected
  | .object => .objectCommaExpected

end Bracket

/-- An escape, behind its backslash. A number is not looked up. -/
def skipEscape : Reader Unit := do
  match ← peek? with
  | none => failHere (.fault .endInString)
  | some 'u' => do
    advance
    let _ ← hexEscape
  | some c => if (shortEscape? c).isSome then advance else failAhead .invalidEscape

def skipStringUpTo : Nat → Reader Unit
  | 0 => failHere (.fault .endInString)
  | n + 1 => do
    let _ ← takeAll isPlain
    match ← peek? with
    | none => failHere (.fault .endInString)
    | some '"' => advance
    | some '\\' => do
      advance
      skipEscape
      skipStringUpTo n
    | some _ => failHere (.fault .controlCharacter)

def skipString : Reader Unit := do
  skipStringUpTo ((← remaining) + 1)

def skipExponent : Reader Unit := do
  if (← peek?).any (fun c => c == 'e' || c == 'E') then
    advance
    if (← peek?).any (fun c => c == '+' || c == '-') then advance
    if (← takeAll Char.isDigit).isEmpty then failAhead .invalidNumber

def skipNumber : Reader Unit := do
  match ← peek? with
  | some '0' => do
    advance
    if (← peek?).any Char.isDigit then failAhead .invalidNumber
  | _ => if (← takeAll Char.isDigit).isEmpty then failAhead .invalidNumber
  if (← peek?) == some '.' then
    advance
    if (← takeAll Char.isDigit).isEmpty then failAhead .invalidNumber
  skipExponent

def skipStart : Reader (Option Bracket) := do
  match ← nextPart? with
  | none => failHere (.fault .endInValue)
  | some 'n' => do ident ['n', 'u', 'l', 'l']; return none
  | some 't' => do ident ['t', 'r', 'u', 'e']; return none
  | some 'f' => do ident ['f', 'a', 'l', 's', 'e']; return none
  | some '-' => do advance; skipNumber; return none
  | some '"' => do advance; skipString; return none
  | some '[' => do advance; return some .list
  | some '\x7b' => do advance; return some .object
  | some c =>
    if c.isDigit then
      skipNumber
      return none
    else failAhead .valueExpected

/-- Closes brackets as long as they are closed, and takes the comma in front of a further part. Gives the
brackets that stay open. Only what follows a value can be a comma. -/
def skipClosings (behindValue : Bool) : List Bracket → Reader (List Bracket)
  | [] => return []
  | b :: bs => do
    match ← nextPart? with
    | none => failHere (.fault b.atEnd)
    | some c =>
      if c = ',' && behindValue then
        advance
        return b :: bs
      else if c = b.closing then
        advance
        skipClosings true bs
      else if behindValue then failAhead b.noComma
      else return b :: bs

def skipName : Reader Unit := do
  match ← nextPart? with
  | none => failHere (.fault .endInObject)
  | some '"' => do
    advance
    skipString
    colon
  | some _ => failAhead .keyNotString

def skipParts (around : List Bracket) : Nat → Reader Unit
  | 0 => return ()
  | n + 1 => do
    let stillOpen ← match ← skipStart with
      | none => skipClosings true around
      | some b => skipClosings false (b :: around)
    match stillOpen with
    | [] => return ()
    | b :: bs => do
      if b = .object then skipName
      skipParts (b :: bs) n

def skipValue : Reader Unit := do
  skipParts [] ((← remaining) + 1)

end Vitae.Json.Reader
