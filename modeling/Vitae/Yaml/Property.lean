import Vitae.Yaml.Scalar

namespace Vitae.Yaml

abbrev Tag := List UInt8

def Tag.ofChars (s : List Char) : Tag :=
  s.flatMap String.utf8EncodeChar

def Tag.text? (t : Tag) : Option (List Char) :=
  (String.fromUTF8? t.toByteArray).map String.toList

/-- The tag up to its first zero byte, which ends it. -/
def Tag.upToZero (t : Tag) : Tag :=
  t.takeWhile (· != 0)

structure TagName where
  handle : List Char
  suffix : Tag
  deriving DecidableEq, Repr

inductive Directive where
  | version (major minor : Nat)
  | tag (handle : List Char) (replacement : Tag)
  deriving DecidableEq, Repr

namespace Scanner

open Text (digitValue hexValue?)

def anchorName : Scanner (List Char) := do
  let name ← takeAll isNameChar
  let next ← peek?
  if name.isEmpty || !next.all (fun c => isBlankOrBreak c || "?:,]\x7d%@\x60".toList.contains c) then
    fail .badAnchor
  return name

def isTagChar (verbatim : Bool) (c : Char) : Bool :=
  isNameChar c || ";/?:@&=+$.%!~*'()".toList.contains c || (verbatim && ",[]".toList.contains c)

def percentByte : Scanner UInt8 := do
  match (← peekAt? 0), (← peekAt? 1).bind hexValue?, (← peekAt? 2).bind hexValue? with
  | some '%', some a, some b => do
    advance
    advance
    advance
    return (a * 16 + b).toUInt8
  | _, _, _ => fail .badTag

def bytesFollowing? (b : UInt8) : Option Nat :=
  if b < 0x80 then some 0
  else if b &&& 0xE0 == 0xC0 then some 1
  else if b &&& 0xF0 == 0xE0 then some 2
  else if b &&& 0xF8 == 0xF0 then some 3
  else none

def continuationBytes : Nat → Scanner (List UInt8)
  | 0 => return []
  | n + 1 => do
    let b ← percentByte
    if b &&& 0xC0 != 0x80 then fail .badTag
    return b :: (← continuationBytes n)

/-- The bytes of a character. They may be more than it needs, or those of no character. -/
def percentCharacter : Scanner Tag := do
  let b ← percentByte
  match bytesFollowing? b with
  | some n => return b :: (← continuationBytes n)
  | none => fail .badTag

def tagTextFrom (verbatim : Bool) : Nat → Scanner Tag
  | 0 => return []
  | n + 1 => do
    match ← peek? with
    | none => return []
    | some c =>
      if c == '%' then
        let d ← percentCharacter
        return d ++ (← tagTextFrom verbatim n)
      else if isTagChar verbatim c then
        advance
        return String.utf8EncodeChar c ++ (← tagTextFrom verbatim n)
      else return []

def tagText (verbatim : Bool) : Scanner Tag := do
  tagTextFrom verbatim (← remaining)

def tagPart (verbatim : Bool) : Scanner Tag := do
  let text ← tagText verbatim
  if text.isEmpty then fail .badTag
  return text.upToZero

def tagHandle : Scanner (List Char) := do
  if (← peek?) != some '!' then fail .badTag
  advance
  let name ← takeAll isNameChar
  if (← peek?) == some '!' then
    advance
    return '!' :: (name ++ ['!'])
  return '!' :: name

def isClosedHandle (handle : List Char) : Bool :=
  2 ≤ handle.length && handle.getLast? == some '!'

def tag (inFlow : Bool) : Scanner TagName := do
  let name ← do
    if (← peekAt? 1) == some '<' then
      advance
      advance
      let text ← tagPart true
      if (← peek?) != some '>' then fail .badTag
      advance
      pure ⟨[], text⟩
    else
      let handle ← tagHandle
      if isClosedHandle handle then pure ⟨handle, ← tagPart false⟩
      else
        let suffix := Tag.upToZero (Tag.ofChars (handle.drop 1) ++ (← tagText false))
        pure (if suffix.isEmpty then ⟨[], Tag.ofChars ['!']⟩ else ⟨['!'], suffix⟩)
  if !(inFlow && (← peek?) == some ',') && !endsWord (← peek?) then fail .badTag
  return name

def versionNumber : Scanner Nat := do
  let digits ← takeAll Char.isDigit
  if digits.isEmpty || 9 < digits.length then fail .badDirective
  return digits.foldl (fun n c => n * 10 + digitValue c) 0

def directive : Scanner Directive := do
  let name ← takeAll isNameChar
  if !endsWord (← peek?) then fail .badDirective
  let _ ← takeAll isGap
  let d ←
    if name == "YAML".toList then do
      let major ← versionNumber
      if (← peek?) != some '.' then fail .badDirective
      advance
      pure (.version major (← versionNumber))
    else if name == "TAG".toList then do
      let handle ← tagHandle
      if handle != ['!'] && !isClosedHandle handle then fail .badDirective
      if !(← peek?).any isGap then fail .badDirective
      let _ ← takeAll isGap
      let replacement ← tagPart true
      if !endsWord (← peek?) then fail .badDirective
      pure (.tag handle replacement)
    else fail .badDirective
  restOfLine .badDirective
  return d

end Scanner

end Vitae.Yaml
