import Vitae.Text.Digit
import Vitae.Yaml.Source

namespace Vitae.Yaml.Scanner

open Text (digitValue hexValue?)

def foldBreaks : List Char → List Char
  | ['\n'] => [' ']
  | '\n' :: breaks => breaks
  | breaks => breaks

/-! ## Plain scalars -/

def isFlowIndicator (c : Char) : Bool :=
  c == ',' || c == '[' || c == ']' || c == '\x7b' || c == '\x7d'

/-- A word of a plain scalar. It ends at a blank, at a colon that ends a key, and within brackets at their
indicators. -/
def plainWord (inFlow : Bool) : Nat → Scanner (List Char)
  | 0 => return []
  | n + 1 => do
    let next ← peekAt? 1
    match ← peek? with
    | none => return []
    | some c =>
      if isBlankOrBreak c then return []
      else if inFlow && c == ':' && next.any (fun d => isFlowIndicator d || d == '?') then
        fail .colonInFlow
      else if (c == ':' && endsWord next) || (inFlow && isFlowIndicator c) then return []
      else
        advance
        return c :: (← plainWord inFlow n)

/-- The blanks and line breaks behind a word: the blanks in front of the first line break, and the line
breaks. Behind a line break a tab may not stand in the indentation. -/
def plainGap (indent : Int) : Bool → Nat → Scanner (List Char × List Char)
  | _, 0 => return ([], [])
  | broken, n + 1 => do
    match ← peek? with
    | none => return ([], [])
    | some c =>
      if isBreak c then
        advance
        let (_, breaks) ← plainGap indent true n
        return ([], c :: breaks)
      else if isGap c then
        if broken && c == '\t' && (← get).mark.column < indent then fail .tabInIndentation
        advance
        let (blanks, breaks) ← plainGap indent broken n
        return (if broken || !breaks.isEmpty then [] else c :: blanks, breaks)
      else return ([], [])

/-- The words of a plain scalar from here on, and whether a line break follows the last of them. `broken` says
whether one stands in front. -/
def plainFrom (inFlow : Bool) (indent : Int) : Bool → Nat → Scanner (List Char × Bool)
  | broken, 0 => return ([], broken)
  | broken, n + 1 => do
    if (← get).atDocumentMark || (← peek?) == some '#' then return ([], broken)
    let word ← plainWord inFlow (← remaining)
    if word.isEmpty then return ([], broken)
    if !(← peek?).any isBlankOrBreak then return (word, false)
    let (blanks, breaks) ← plainGap indent false (← remaining)
    let broken := !breaks.isEmpty
    if !inFlow && (← get).mark.column < indent then return (word, broken)
    let (more, broken') ← plainFrom inFlow indent broken n
    if more.isEmpty then return (word, broken')
    return (word ++ (if broken then foldBreaks breaks else blanks) ++ more, broken')

def plain (inFlow : Bool) (indent : Int) : Scanner (List Char × Bool) := do
  plainFrom inFlow indent false ((← remaining) + 1)

/-! ## Scalars in quotes -/

def codePoint (value : Nat) : Nat → Scanner Char
  | 0 =>
    if (0xD800 ≤ value && value ≤ 0xDFFF) || 0x10FFFF < value then fail .badEscape
    else return Char.ofNat value
  | n + 1 => do
    match (← peek?).bind hexValue? with
    | some d => do advance; codePoint (value * 16 + d) n
    | none => fail .badEscape

def shortEscape? : Char → Option Char
  | '0' => some '\x00'
  | 'a' => some '\x07'
  | 'b' => some '\x08'
  | 't' | '\t' => some '\t'
  | 'n' => some '\n'
  | 'v' => some '\x0b'
  | 'f' => some '\x0c'
  | 'r' => some '\r'
  | 'e' => some '\x1b'
  | ' ' => some ' '
  | '"' => some '"'
  | '/' => some '/'
  | '\\' => some '\\'
  | 'N' => some '\u0085'
  | '_' => some '\u00a0'
  | 'L' => some '\u2028'
  | 'P' => some '\u2029'
  | _ => none

def escape : Scanner Char := do
  match ← peek? with
  | some 'x' => do advance; codePoint 0 2
  | some 'u' => do advance; codePoint 0 4
  | some 'U' => do advance; codePoint 0 8
  | some c =>
    match shortEscape? c with
    | some d => do advance; return d
    | none => fail .badEscape
  | none => fail .badEscape

inductive Quote where
  | single
  | double
  deriving DecidableEq, Repr

def Quote.char : Quote → Char
  | .single => '\''
  | .double => '"'

def quotedWord (q : Quote) : Nat → Scanner (List Char × Bool)
  | 0 => return ([], false)
  | n + 1 => do
    let next ← peekAt? 1
    match ← peek? with
    | none => return ([], false)
    | some c =>
      if isBlankOrBreak c then return ([], false)
      else if q = .single && c == '\'' && next == some '\'' then
        advance
        advance
        let (word, broken) ← quotedWord q n
        return ('\'' :: word, broken)
      else if c == q.char then return ([], false)
      else if q = .double && c == '\\' then
        advance
        if next.any isBreak then
          advance
          return ([], true)
        let d ← escape
        let (word, broken) ← quotedWord q n
        return (d :: word, broken)
      else
        advance
        let (word, broken) ← quotedWord q n
        return (c :: word, broken)

def quotedGap (broken : Bool) : Scanner (List Char × List Char) := do
  let gap ← takeAll isBlankOrBreak
  let breaks := gap.filter isBreak
  return (if broken || !breaks.isEmpty then [] else gap, breaks)

def quotedFrom (q : Quote) : Nat → Scanner (List Char)
  | 0 => fail .scalarNotClosed
  | n + 1 => do
    if (← get).atDocumentMark then fail .markInScalar
    if (← peek?).isNone then fail .scalarNotClosed
    let (word, escaped) ← quotedWord q (← remaining)
    if (← peek?) == some q.char then
      advance
      return word
    let (blanks, breaks) ← quotedGap escaped
    let gap := if escaped then breaks else if breaks.isEmpty then blanks else foldBreaks breaks
    return word ++ gap ++ (← quotedFrom q n)

def quoted (q : Quote) : Scanner (List Char) := do
  quotedFrom q ((← remaining) + 1)

/-! ## Block scalars -/

inductive Chomping where
  | strip
  | clip
  | keep
  deriving DecidableEq, Repr

def blockHeader : Scanner (Chomping × Nat) := do
  let chomping : Scanner (Option Chomping) := do
    match ← peek? with
    | some '+' => do advance; return some .keep
    | some '-' => do advance; return some .strip
    | _ => return none
  let increment : Scanner Nat := do
    match ← peek? with
    | some c =>
      if c == '0' then fail .badBlockHeader
      else if c.isDigit then
        advance
        return digitValue c
      else return 0
    | none => return 0
  let header ← do
    match ← chomping with
    | some c => pure (c, ← increment)
    | none =>
      let i ← increment
      if i = 0 then pure (.clip, 0) else pure ((← chomping).getD .clip, i)
  restOfLine .badBlockHeader
  return header

/-- The line breaks in front of a line and its indentation, as far as it is one. An indentation of zero is not
known yet. Gives the line breaks and the deepest indentation seen. -/
def blockBreaks (indent deepest : Nat) : Nat → Scanner (List Char × Nat)
  | 0 => return ([], deepest)
  | n + 1 => do
    indentation ((← remaining) + 1)
    let column := (← get).mark.column
    if (indent = 0 || column < indent) && (← peek?) == some '\t' then fail .tabInIndentation
    match ← takeBreak with
    | [] => return ([], max deepest column)
    | breaks => do
      let (more, deepest) ← blockBreaks indent (max deepest column) n
      return (breaks ++ more, deepest)
where
  indentation : Nat → Scanner Unit
    | 0 => return ()
    | n + 1 => do
      if (indent = 0 || (← get).mark.column < indent) && (← peek?) == some ' ' then
        advance
        indentation n

/-- The lines of a block and what follows the last of them: its line break, and further ones. The line break
in front of a line, whether the line before is an indented one, and the line breaks between them are known. -/
def blockLines (folded : Bool) (indent : Nat) (lineBreak : List Char) (afterBlank : Bool)
    (breaks : List Char) : Nat → Scanner (List Char × List Char × List Char)
  | 0 => return ([], lineBreak, breaks)
  | n + 1 => do
    if (← get).mark.column ≠ indent || (← peek?).isNone then return ([], lineBreak, breaks)
    let blank := (← peek?).any isGap
    let between :=
      if folded && lineBreak == ['\n'] && !afterBlank && !blank then
        if breaks.isEmpty then [' '] else breaks
      else lineBreak ++ breaks
    let line ← takeAll (!isBreak ·)
    let lineBreak' ← takeBreak
    let (breaks', _) ← blockBreaks indent 0 ((← remaining) + 1)
    let (more, tail) ← blockLines folded indent lineBreak' blank breaks' n
    return (between ++ line ++ more, tail)

def block (folded : Bool) (parent : Int) : Scanner (List Char) := do
  let (chomping, increment) ← blockHeader
  let given := if increment = 0 then 0 else (max parent 0).toNat + increment
  let (breaks, deepest) ← blockBreaks given 0 ((← remaining) + 1)
  let indent := if given = 0 then max deepest (max (parent + 1) 1).toNat else given
  let (text, lineBreak, breaks) ← blockLines folded indent [] false breaks ((← remaining) + 1)
  match chomping with
  | .strip => return text
  | .clip => return text ++ lineBreak
  | .keep => return text ++ lineBreak ++ breaks

end Vitae.Yaml.Scanner
