import Vitae.Yaml.Token

/-!
# Nodes

The tree of nodes that the tokens of a text make up. A node can be named by an anchor and stand in other
places by an alias; a `Tree` keeps the named nodes beside the tree, so that an alias may lead to a node
around it.

An anchor is known by a number: how many different names were in use before it. A name that is used again
takes a new number, which the next new name takes too; an alias leads to the last node of its number.
-/

namespace Vitae.Yaml

inductive Node where
  | scalar (mark : Mark) (tag : Option Tag) (plain : Bool) (text : List Char)
  | sequence (mark : Mark) (tag : Option Tag) (items : List Node)
  | mapping (mark : Mark) (tag : Option Tag) (pairs : List (Node × Node))
  | alias (mark : Mark) (number : Nat)
  deriving Repr, Inhabited

def Node.mark : Node → Mark
  | .scalar mark _ _ _ | .sequence mark _ _ | .mapping mark _ _ | .alias mark _ => mark

structure Tree where
  root : Option Node
  anchored : List (Nat × Node)
  /-- How many starts and ends of nodes there are; a scalar and an alias count once. -/
  size : Nat
  deriving Repr

structure Composer.State where
  tokens : List Token
  handles : List (List Char × Tag)
  names : List (List Char × Nat)
  anchors : Nat
  /-- For each number the anchors that had it, the last one first; anchors are counted from zero. -/
  holders : List (Nat × Nat)
  nodes : List (Nat × Node)
  size : Nat

abbrev Composer (α : Type) := StateT Composer.State (Except Malformed) α

namespace Composer

variable {α : Type}

def noToken : Token :=
  ⟨.streamEnd, .start, .start⟩

def peek : Composer Token := do
  return (← get).tokens.head?.getD noToken

def advance : Composer Unit :=
  modify fun s => { s with tokens := s.tokens.drop 1 }

def fail (fault : Fault) : Composer α := do
  throw ⟨fault, (← peek).start⟩

def count (n : Nat) : Composer Unit :=
  modify fun s => { s with size := s.size + n }

def emptyScalar (mark : Mark) : Composer Node := do
  count 1
  return .scalar mark none true []

/-! ## Anchors and tags -/

def noteAnchor (name : List Char) : Composer Nat := do
  let s ← get
  let number := s.names.length
  set { s with
    names := (name, number) :: s.names.filter (·.1 != name)
    anchors := s.anchors + 1
    holders := (number, s.anchors) :: s.holders }
  return s.anchors

def keepNode (anchor : Option Nat) (node : Node) : Composer Unit :=
  match anchor with
  | some a => modify fun s => { s with nodes := (a, node) :: s.nodes }
  | none => return ()

def knownHandles : List (List Char × Tag) :=
  [(['!'], Tag.ofChars ['!']), (['!', '!'], Tag.ofChars "tag:yaml.org,2002:".toList)]

def fullTag (name : TagName) : Composer Tag := do
  if name.handle.isEmpty then return name.suffix
  match (← get).handles.lookup name.handle with
  | some replacement => return replacement ++ name.suffix
  | none => fail .unknownHandle

structure Properties where
  anchor : Option (List Char) := none
  tag : Option Tag := none

def anchorProperty : Composer (Option (List Char)) := do
  match (← peek).kind with
  | .anchor name => do advance; return some name
  | _ => return none

def tagProperty : Composer (Option TagName) := do
  match (← peek).kind with
  | .tag name => do advance; return some name
  | _ => return none

def properties : Composer Properties := do
  let anchor ← anchorProperty
  let tag ← tagProperty
  let anchor ← if anchor.isNone && tag.isSome then anchorProperty else pure anchor
  let tag ← match tag with
    | some name => pure (some (← fullTag name))
    | none => pure none
  return { anchor, tag }

/-! ## Nodes -/

def emptyNode (p : Properties) (mark : Mark) : Composer Node := do
  if p.anchor.isNone && p.tag.isNone then fail .contentExpected
  count 1
  return .scalar mark p.tag true []

def endsBlockPart : TokenKind → Bool
  | .key | .value | .blockEnd => true
  | _ => false

def endsFlowPart (close : TokenKind) (k : TokenKind) : Bool :=
  k == .flowEntry || k == close

mutual

/-- A node. Within brackets there are no blocks; `indentless` is whether a dash at the column of the mapping
around it starts a sequence. -/
def node (inBlock indentless : Bool) : Nat → Composer Node
  | 0 => fail .contentExpected
  | n + 1 => do
    let first ← peek
    match first.kind with
    | .alias name => do
      advance
      count 1
      match (← get).names.lookup name with
      | some number => return .alias first.start number
      | none => throw ⟨.unknownAnchor, first.start⟩
    | _ => do
      let p ← properties
      let anchor ← match p.anchor with
        | some name => pure (some (← noteAnchor name))
        | none => pure none
      let made ← match (← peek).kind with
        | .blockEntry =>
          if indentless then do
            count 2
            pure (.sequence first.start p.tag (← indentlessItems n))
          else emptyNode p first.start
        | .scalar text plain => do
          advance
          count 1
          pure (.scalar first.start p.tag plain text)
        | .flowSequenceStart => do
          advance
          count 2
          pure (.sequence first.start p.tag (← flowItems true n))
        | .flowMappingStart => do
          advance
          count 2
          pure (.mapping first.start p.tag (← flowPairs true n))
        | .blockSequenceStart =>
          if inBlock then do
            advance
            count 2
            pure (.sequence first.start p.tag (← blockItems n))
          else emptyNode p first.start
        | .blockMappingStart =>
          if inBlock then do
            advance
            count 2
            pure (.mapping first.start p.tag (← blockPairs n))
          else emptyNode p first.start
        | _ => emptyNode p first.start
      keepNode anchor made
      return made

def blockItems : Nat → Composer (List Node)
  | 0 => fail .entryExpected
  | n + 1 => do
    let token ← peek
    match token.kind with
    | .blockEntry => do
      advance
      let k := (← peek).kind
      let item ← if k == .blockEntry || k == .blockEnd then emptyScalar token.stop else node true false n
      return item :: (← blockItems n)
    | .blockEnd => do advance; return []
    | _ => fail .entryExpected

def indentlessItems : Nat → Composer (List Node)
  | 0 => fail .entryExpected
  | n + 1 => do
    let token ← peek
    match token.kind with
    | .blockEntry => do
      advance
      let k := (← peek).kind
      let item ←
        if k == .blockEntry || endsBlockPart k then emptyScalar token.stop else node true false n
      return item :: (← indentlessItems n)
    | _ => return []

def blockPairs : Nat → Composer (List (Node × Node))
  | 0 => fail .keyExpected
  | n + 1 => do
    let token ← peek
    match token.kind with
    | .key => do
      advance
      let key ← blockPart token.stop n
      let pair := (key, ← blockValue n)
      return pair :: (← blockPairs n)
    | .blockEnd => do advance; return []
    | _ => fail .keyExpected

def blockValue : Nat → Composer Node
  | 0 => fail .keyExpected
  | n + 1 => do
    let token ← peek
    if token.kind == .value then
      advance
      blockPart token.stop n
    else emptyScalar token.start

def blockPart (mark : Mark) : Nat → Composer Node
  | 0 => fail .contentExpected
  | n + 1 => do
    if endsBlockPart (← peek).kind then emptyScalar mark else node true true n

def flowItems (first : Bool) : Nat → Composer (List Node)
  | 0 => fail .commaExpected
  | n + 1 => do
    if (← peek).kind == .flowSequenceEnd then
      advance
      return []
    if !first then
      if (← peek).kind != .flowEntry then fail .commaExpected
      advance
    let token ← peek
    match token.kind with
    | .key => do
      advance
      count 2
      let pair ← singlePair n
      return .mapping token.start none [pair] :: (← flowItems false n)
    | .flowSequenceEnd => do advance; return []
    | _ => do
      let item ← node false false n
      return item :: (← flowItems false n)

/-- A pair that is an item, behind the indicator of its key. The token behind a missing key is passed over,
whatever it is. -/
def singlePair : Nat → Composer (Node × Node)
  | 0 => fail .contentExpected
  | n + 1 => do
    let token ← peek
    let key ←
      if token.kind == .value || endsFlowPart .flowSequenceEnd token.kind then do
        advance
        emptyScalar token.stop
      else node false false n
    return (key, ← flowValue .flowSequenceEnd n)

def flowPairs (first : Bool) : Nat → Composer (List (Node × Node))
  | 0 => fail .commaExpected
  | n + 1 => do
    if (← peek).kind == .flowMappingEnd then
      advance
      return []
    if !first then
      if (← peek).kind != .flowEntry then fail .commaExpected
      advance
    match (← peek).kind with
    | .key => do
      advance
      let token ← peek
      let key ←
        if token.kind == .value || endsFlowPart .flowMappingEnd token.kind then emptyScalar token.start
        else node false false n
      let pair := (key, ← flowValue .flowMappingEnd n)
      return pair :: (← flowPairs false n)
    | .flowMappingEnd => do advance; return []
    | _ => do
      let key ← node false false n
      let pair := (key, ← emptyScalar (← peek).start)
      return pair :: (← flowPairs false n)

def flowValue (close : TokenKind) : Nat → Composer Node
  | 0 => fail .contentExpected
  | n + 1 => do
    if (← peek).kind == .value then
      advance
      if !endsFlowPart close (← peek).kind then return ← node false false n
    emptyScalar (← peek).start

end

/-! ## Documents -/

def directives (version : Bool) : Nat → Composer Unit
  | 0 => return ()
  | n + 1 => do
    match (← peek).kind with
    | .directive (.version major minor) => do
      if version then fail .duplicateDirective
      if major ≠ 1 || !(minor = 1 || minor = 2) then fail .unknownVersion
      advance
      directives true n
    | .directive (.tag handle replacement) => do
      if ((← get).handles.lookup handle).isSome then fail .duplicateDirective
      modify fun s => { s with handles := s.handles ++ [(handle, replacement)] }
      advance
      directives version n
    | _ => return ()

def startsExplicitly : TokenKind → Bool
  | .directive _ | .documentStart => true
  | _ => false

def endsDocument : TokenKind → Bool
  | .directive _ | .documentStart | .documentEnd | .streamEnd => true
  | _ => false

def documentEnds : Nat → Composer Unit
  | 0 => return ()
  | n + 1 => do
    if (← peek).kind == .documentEnd then
      advance
      documentEnds n

def document : Composer (Option Node) := do
  let fuel := 4 * (← get).tokens.length + 4
  let first := (← peek).kind
  if first == .streamEnd then return none
  let root ←
    if startsExplicitly first then do
      directives false fuel
      if (← peek).kind != .documentStart then fail .documentStartExpected
      advance
      modify fun s => { s with handles := s.handles ++ knownHandles }
      let token ← peek
      if endsDocument token.kind then emptyScalar token.start else node true false fuel
    else do
      modify fun s => { s with handles := knownHandles }
      node true false fuel
  documentEnds fuel
  match (← peek).kind with
  | .streamEnd => return some root
  | .documentStart => fail .severalDocuments
  | _ => fail .documentStartExpected

end Composer

def Tree.ofText (text : List Char) : Except Malformed Tree := do
  let tokens ← tokens text
  let (root, s) ← Composer.document
    { tokens, handles := [], names := [], anchors := 0, holders := [], nodes := [], size := 0 }
  let numbers := s.holders.map (·.1)
  let anchored := numbers.eraseDups.filterMap fun number => do
    let anchor ← s.holders.lookup number
    return (number, ← s.nodes.lookup anchor)
  return { root, anchored, size := s.size }

end Vitae.Yaml
