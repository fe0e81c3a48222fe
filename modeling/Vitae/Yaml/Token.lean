import Vitae.Yaml.Property

/-!
# Tokens

The tokens of a YAML text. Indentation becomes tokens too: `blockMappingStart`, `blockSequenceStart` and
`blockEnd` stand where brackets would. That something is a key shows only at the colon behind it, so the
place in front of what may be a key is kept (`Candidate`), and its tokens are put there later.
-/

namespace Vitae.Yaml

inductive TokenKind where
  | streamEnd
  | directive (d : Directive)
  | documentStart
  | documentEnd
  | blockSequenceStart
  | blockMappingStart
  | blockEnd
  | flowSequenceStart
  | flowSequenceEnd
  | flowMappingStart
  | flowMappingEnd
  | blockEntry
  | flowEntry
  | key
  | value
  | alias (name : List Char)
  | anchor (name : List Char)
  | tag (name : TagName)
  | scalar (text : List Char) (plain : Bool)
  deriving DecidableEq, Repr

structure Token where
  kind : TokenKind
  start : Mark
  stop : Mark
  deriving DecidableEq, Repr

/-- A place where a key may have started: how many tokens are in front of it. A required one has to turn out
to be a key. -/
structure Candidate where
  required : Bool
  index : Nat
  mark : Mark
  deriving DecidableEq, Repr

structure Tokenizer.State where
  source : Source
  tokens : List Token
  candidate : Option Candidate
  outer : List (Option Candidate)
  indents : List Nat
  keyAllowed : Bool

abbrev Tokenizer (α : Type) := StateT Tokenizer.State (Except Malformed) α

namespace Tokenizer

variable {α : Type}

def State.ofText (text : List Char) : State :=
  { source := ⟨text, .start⟩
    tokens := []
    candidate := none
    outer := []
    indents := []
    keyAllowed := true }

def State.inFlow (s : State) : Bool :=
  !s.outer.isEmpty

/-- The column of the innermost block, or one less than any column. -/
def State.indent (s : State) : Int :=
  match s.indents with
  | [] => -1
  | i :: _ => i

def State.mark (s : State) : Mark :=
  s.source.mark

def scan (x : Scanner α) : Tokenizer α := fun s => do
  let (a, source) ← x s.source
  return (a, { s with source })

def fail (fault : Fault) : Tokenizer α :=
  fun s => .error ⟨fault, s.mark⟩

def push (kind : TokenKind) (start stop : Mark) : Tokenizer Unit :=
  modify fun s => { s with tokens := ⟨kind, start, stop⟩ :: s.tokens }

def insertAt (index : Nat) (kind : TokenKind) (mark : Mark) : Tokenizer Unit :=
  modify fun s =>
    let behind := s.tokens.length - index
    { s with tokens := s.tokens.take behind ++ ⟨kind, mark, mark⟩ :: s.tokens.drop behind }

def allowKey (allowed : Bool) : Tokenizer Unit :=
  modify fun s => { s with keyAllowed := allowed }

def indicator (kind : TokenKind) (characters : Nat) : Tokenizer Unit := do
  let start := (← get).mark
  scan (Scanner.skip characters)
  push kind start (← get).mark

/-! ## Candidates for keys -/

def longestKey : Nat := 1024

def Candidate.isStale (mark : Mark) (c : Candidate) : Bool :=
  c.mark.line < mark.line || c.mark.bytes + longestKey < mark.bytes

def drop (c : Option Candidate) : Tokenizer Unit := do
  match c with
  | some ⟨true, _, _⟩ => fail .colonExpected
  | _ => return ()

def fresh (c : Option Candidate) : Tokenizer (Option Candidate) := do
  if c.any (Candidate.isStale (← get).mark) then
    drop c
    return none
  else return c

def dropStale : Tokenizer Unit := do
  let outer ← (← get).outer.mapM fresh
  let candidate ← fresh (← get).candidate
  modify fun s => { s with outer, candidate }

def dropCandidate : Tokenizer Unit := do
  drop (← get).candidate
  modify fun s => { s with candidate := none }

def noteCandidate : Tokenizer Unit := do
  if (← get).keyAllowed then
    dropCandidate
    modify fun s =>
      let required := !s.inFlow && s.indent == s.mark.column
      { s with candidate := some ⟨required, s.tokens.length, s.mark⟩ }

/-! ## Indentation -/

def openBlock (column : Nat) (start : Tokenizer Unit) : Tokenizer Unit := do
  let s ← get
  if !s.inFlow && s.indent < column then
    modify fun s => { s with indents := column :: s.indents }
    start

def openBlockHere (kind : TokenKind) : Tokenizer Unit := do
  let mark := (← get).mark
  openBlock mark.column (push kind mark mark)

/-- The blocks that stay open at a column, and a token for the end of each of the others. -/
def closeDeeper (column : Int) (mark : Mark) : List Nat → List Token → List Nat × List Token
  | [], tokens => ([], tokens)
  | i :: is, tokens =>
    if column < i then closeDeeper column mark is (⟨.blockEnd, mark, mark⟩ :: tokens)
    else (i :: is, tokens)

def closeBlocks (column : Int) : Tokenizer Unit :=
  modify fun s =>
    if s.inFlow then s
    else
      let (indents, tokens) := closeDeeper column s.mark s.indents s.tokens
      { s with indents, tokens }

/-! ## Tokens one by one -/

def skipBlanks : Nat → Tokenizer Unit
  | 0 => return ()
  | n + 1 => do
    if (← get).mark.column = 0 && (← scan Scanner.peek?) == some '\uFEFF' then scan Scanner.advance
    let s ← get
    let tabs := s.inFlow || !s.keyAllowed
    let _ ← scan (Scanner.takeAll fun c => c == ' ' || (tabs && c == '\t'))
    if (← scan Scanner.peek?) == some '#' then
      let _ ← scan (Scanner.takeAll (!isBreak ·))
    if !(← scan Scanner.takeBreak).isEmpty then
      if !(← get).inFlow then allowKey true
      skipBlanks n

def streamEnd : Tokenizer Unit := do
  modify fun s =>
    if s.mark.column = 0 then s
    else { s with source := { s.source with mark := s.mark.nextLine } }
  closeBlocks (-1)
  dropCandidate
  allowKey false
  let mark := (← get).mark
  push .streamEnd mark mark

def directive : Tokenizer Unit := do
  closeBlocks (-1)
  dropCandidate
  allowKey false
  let start := (← get).mark
  scan Scanner.advance
  let d ← scan Scanner.directive
  push (.directive d) start (← get).mark

def documentMark (kind : TokenKind) : Tokenizer Unit := do
  closeBlocks (-1)
  dropCandidate
  allowKey false
  indicator kind 3

def flowStart (kind : TokenKind) : Tokenizer Unit := do
  noteCandidate
  modify fun s => { s with outer := s.candidate :: s.outer, candidate := none }
  allowKey true
  indicator kind 1

def flowEnd (kind : TokenKind) : Tokenizer Unit := do
  dropCandidate
  modify fun s =>
    match s.outer with
    | [] => s
    | c :: cs => { s with outer := cs, candidate := c }
  allowKey false
  indicator kind 1

def flowEntry : Tokenizer Unit := do
  dropCandidate
  allowKey true
  indicator .flowEntry 1

def blockEntry : Tokenizer Unit := do
  if !(← get).inFlow then
    if !(← get).keyAllowed then fail .entryNotAllowed
    openBlockHere .blockSequenceStart
  dropCandidate
  allowKey true
  indicator .blockEntry 1

def explicitKey : Tokenizer Unit := do
  if !(← get).inFlow then
    if !(← get).keyAllowed then fail .keyNotAllowed
    openBlockHere .blockMappingStart
  dropCandidate
  allowKey !(← get).inFlow
  indicator .key 1

def value : Tokenizer Unit := do
  match (← get).candidate with
  | some c => do
    insertAt c.index .key c.mark
    openBlock c.mark.column (insertAt c.index .blockMappingStart c.mark)
    modify fun s => { s with candidate := none }
    allowKey false
  | none => do
    if !(← get).inFlow then
      if !(← get).keyAllowed then fail .valueNotAllowed
      openBlockHere .blockMappingStart
    allowKey !(← get).inFlow
  indicator .value 1

def keyPart (x : Tokenizer TokenKind) : Tokenizer Unit := do
  noteCandidate
  allowKey false
  let start := (← get).mark
  let kind ← x
  push kind start (← get).mark

def aliasToken : Tokenizer TokenKind := do
  scan Scanner.advance
  return .alias (← scan Scanner.anchorName)

def anchorToken : Tokenizer TokenKind := do
  scan Scanner.advance
  return .anchor (← scan Scanner.anchorName)

def tagToken : Tokenizer TokenKind := do
  return .tag (← scan (Scanner.tag (← get).inFlow))

def quotedScalar (q : Scanner.Quote) : Tokenizer TokenKind := do
  scan Scanner.advance
  return .scalar (← scan (Scanner.quoted q)) false

def plainScalar : Tokenizer TokenKind := do
  let s ← get
  let (text, broken) ← scan (Scanner.plain s.inFlow (s.indent + 1))
  if broken then allowKey true
  return .scalar text true

def blockScalar (folded : Bool) : Tokenizer Unit := do
  dropCandidate
  allowKey true
  let start := (← get).mark
  scan Scanner.advance
  let text ← scan (Scanner.block folded (← get).indent)
  push (.scalar text false) start (← get).mark

def startsPlain (inFlow : Bool) (c : Char) (next : Option Char) : Bool :=
  !(isBlankOrBreak c || "-?:,[]\x7b\x7d#&*!|>'\"%@\x60".toList.contains c) ||
    (c == '-' && !next.any isGap) || (!inFlow && (c == '?' || c == ':') && !endsWord next)

def tokenAt (c : Char) : Tokenizer Unit := do
  let s ← get
  let next ← scan (Scanner.peekAt? 1)
  if s.mark.column = 0 && c = '%' then directive
  else if s.source.atDocumentMark then
    documentMark (if c = '-' then .documentStart else .documentEnd)
  else if c = '[' then flowStart .flowSequenceStart
  else if c = '\x7b' then flowStart .flowMappingStart
  else if c = ']' then flowEnd .flowSequenceEnd
  else if c = '\x7d' then flowEnd .flowMappingEnd
  else if c = ',' then flowEntry
  else if c = '-' && endsWord next then blockEntry
  else if c = '?' && (s.inFlow || endsWord next) then explicitKey
  else if c = ':' && (s.inFlow || endsWord next) then value
  else if c = '*' then keyPart aliasToken
  else if c = '&' then keyPart anchorToken
  else if c = '!' then keyPart tagToken
  else if c = '|' && !s.inFlow then blockScalar false
  else if c = '>' && !s.inFlow then blockScalar true
  else if c = '\'' then keyPart (quotedScalar .single)
  else if c = '"' then keyPart (quotedScalar .double)
  else if startsPlain s.inFlow c next then keyPart plainScalar
  else fail .unexpectedCharacter

def run : Nat → Tokenizer Unit
  | 0 => return ()
  | n + 1 => do
    skipBlanks ((← scan Scanner.remaining) + 1)
    dropStale
    closeBlocks (← get).mark.column
    match ← scan Scanner.peek? with
    | none => streamEnd
    | some c => do
      tokenAt c
      run n

end Tokenizer

def forbidden? (m : Mark) : List Char → Option Mark
  | [] => none
  | c :: s => if isAllowed c then forbidden? (m.after c) s else some m

def tokens (text : List Char) : Except Malformed (List Token) := do
  let text := uniformBreaks text
  if let some m := forbidden? .start text then throw ⟨.forbiddenCharacter, m⟩
  let (_, s) ← Tokenizer.run (text.length + 1) (.ofText text)
  return s.tokens.reverse

end Vitae.Yaml
