import Vitae.Json.Cursor
import Vitae.Text.Digit

namespace Vitae.Json.Reader

open Text (digitValue hexValue?)

/-! ## Strings -/

def isPlain (c : Char) : Bool :=
  c != '"' && c != '\\' && 0x20 ≤ c.toNat

def hexNumber? (digits : List Char) : Option Nat :=
  digits.foldl (fun n c => do return (← n) * 16 + (← hexValue? c)) (some 0)

/-- Four digits in base sixteen, which take four bytes whatever they are. -/
def hexEscape : Reader Nat := fun c =>
  if (String.ofList (c.rest.take 4)).utf8ByteSize < 4 then
    .error ⟨.fault .endInString, c.position.afterBytes 4 c.rest⟩
  else match hexNumber? (c.rest.take 4) with
    | some n => .ok (n, ⟨c.rest.drop 4, c.position.afterBytes 4 c.rest⟩)
    | none => .error ⟨.fault .invalidEscape, c.position.afterBytes 4 c.rest⟩

def betweenSurrogates (expected : Char) : Reader Unit := do
  match ← peek? with
  | none => failHere (.fault .endInString)
  | some c => if c = expected then advance else failAhead .hexEscapeCut

def codePoint : Reader Char := do
  let n ← hexEscape
  if 0xDC00 ≤ n && n ≤ 0xDFFF then failHere (.fault .loneSurrogate)
  else if n < 0xD800 || 0xDBFF < n then return Char.ofNat n
  else
    betweenSurrogates '\\'
    betweenSurrogates 'u'
    let m ← hexEscape
    if m < 0xDC00 || 0xDFFF < m then failHere (.fault .loneSurrogate)
    else return Char.ofNat ((n - 0xD800) * 0x400 + (m - 0xDC00) + 0x10000)

def shortEscape? : Char → Option Char
  | '"' => some '"'
  | '\\' => some '\\'
  | '/' => some '/'
  | 'b' => some '\x08'
  | 'f' => some '\x0c'
  | 'n' => some '\n'
  | 'r' => some '\r'
  | 't' => some '\t'
  | _ => none

def escape : Reader Char := do
  match ← peek? with
  | none => failHere (.fault .endInString)
  | some 'u' => do advance; codePoint
  | some c =>
    match shortEscape? c with
    | some d => do advance; return d
    | none => failAhead .invalidEscape

def stringUpTo : Nat → Reader (List Char)
  | 0 => failHere (.fault .endInString)
  | n + 1 => do
    let run ← takeAll isPlain
    match ← peek? with
    | none => failHere (.fault .endInString)
    | some '"' => do advance; return run
    | some '\\' => do
      advance
      let c ← escape
      let rest ← stringUpTo n
      return run ++ c :: rest
    | some _ => failAhead .controlCharacter

def stringTail : Reader (List Char) := do
  stringUpTo ((← remaining) + 1)

/-! ## Numbers -/

def greatestWord : Nat := Nat.pow 2 64 - 1

def leadingDigits (n : Nat) : List Char → Nat × Nat
  | [] => (n, 0)
  | c :: s =>
    let m := n * 10 + digitValue c
    if m ≤ greatestWord then
      let (value, count) := leadingDigits m s
      (value, count + 1)
    else (n, 0)

def powerOfTen (k : Nat) : Option Binary64 :=
  Binary64.ofNat? (Nat.pow 10 k)

def greatestPower : Nat := 308

/-- A number divided by `10 ^ k`, in steps of `10 ^ 308` while that is less. A few steps leave nothing. -/
def dividePower (x : Binary64) (k : Nat) : Nat → Option Binary64
  | 0 => some .zero
  | turns + 1 =>
    if k ≤ greatestPower then (powerOfTen k).bind x.div?
    else do
      let y ← x.div? (← powerOfTen greatestPower)
      if y.mantissa = 0 then return y
      dividePower y (k - greatestPower) turns

def scaled? (n : Nat) (k : Int) : Option Binary64 := do
  let x ← Binary64.ofNat? n
  if 0 ≤ k then
    if k ≤ greatestPower then x.mul? (← powerOfTen k.toNat)
    else if n = 0 then some .zero else none
  else dividePower x (-k).toNat 4

def floatOf (negative : Bool) (n : Nat) (k : Int) : Reader Profile.Found := do
  match scaled? n k with
  | some x => return .float (.finite negative x)
  | none => failHere (.fault .numberOutOfRange)

def greatestExponent : Nat := Nat.pow 2 31 - 1

def exponentDigits (e : Nat) : Nat → Reader (Option Nat)
  | 0 => return some e
  | n + 1 => do
    match ← peek? with
    | some c =>
      if c.isDigit then
        advance
        let e' := e * 10 + digitValue c
        if e' ≤ greatestExponent then exponentDigits e' n else return none
      else return some e
    | none => return some e

def exponent : Reader (Bool × Option Nat) := do
  let negative ← do
    match ← peek? with
    | some '+' => do advance; pure false
    | some '-' => do advance; pure true
    | _ => pure false
  match ← peek? with
  | none => failHere (.fault .endInValue)
  | some c =>
    if c.isDigit then
      advance
      return (negative, ← exponentDigits (digitValue c) (← remaining))
    else failAhead .invalidNumber

def withExponent (negative : Bool) (n : Nat) (k : Int) : Reader Profile.Found := do
  match ← peek? with
  | some c =>
    if c = 'e' || c = 'E' then
      advance
      match ← exponent with
      | (true, some e) => floatOf negative n (k - e)
      | (false, some e) => floatOf negative n (k + e)
      | (small, none) =>
        if n ≠ 0 && !small then failHere (.fault .numberOutOfRange)
        else
          let _ ← takeAll Char.isDigit
          return .float (.finite negative .zero)
    else floatOf negative n k
  | none => floatOf negative n k

def fraction (negative : Bool) (n : Nat) (k : Int) : Reader Profile.Found := do
  let digits ← takeAll Char.isDigit
  if digits.isEmpty then
    match ← peek? with
    | some _ => failAhead .invalidNumber
    | none => failHere (.fault .endInValue)
  else
    let (m, count) := leadingDigits n digits
    withExponent negative m (k - count)

/-- An integer as it is found: one that has no place in 64 bits is a number with a fraction, as minus zero
is. -/
def integerOf (negative : Bool) (n : Nat) : Profile.Found :=
  if !negative then .integer n
  else if n = 0 || Nat.pow 2 63 < n then
    .float (.finite true ((Binary64.ofNat? n).getD .zero))
  else .integer (-n)

def number (negative : Bool) : Reader Profile.Found := do
  let tail (n : Nat) (k : Int) : Reader Profile.Found := do
    match ← peek? with
    | some '.' => do advance; fraction negative n k
    | some 'e' | some 'E' => withExponent negative n k
    | _ => if k = 0 then return integerOf negative n else floatOf negative n k
  match ← peek? with
  | none => failHere (.fault .endInValue)
  | some '0' => do
    advance
    if (← peek?).any Char.isDigit then failAhead .invalidNumber else tail 0 0
  | some c =>
    if c.isDigit then
      let digits ← takeAll Char.isDigit
      let (n, count) := leadingDigits 0 digits
      tail n (digits.length - count : Nat)
    else failAhead .invalidNumber

/-! ## Names -/

def ident : List Char → Reader Unit
  | [] => return ()
  | x :: xs => do
    match ← peek? with
    | none => failHere (.fault .endInValue)
    | some c =>
      if c = x then
        advance
        ident xs
      else failAhead .identExpected

def found : Reader Profile.Found := do
  match ← peek? with
  | some 'n' => do ident ['n', 'u', 'l', 'l']; return .null
  | some 't' => do ident ['t', 'r', 'u', 'e']; return .bool true
  | some 'f' => do ident ['f', 'a', 'l', 's', 'e']; return .bool false
  | some '-' => do advance; number true
  | some '"' => do advance; return .string (← stringTail)
  | some '[' => return .sequence
  | some '\x7b' => return .map
  | some c => if c.isDigit then number false else failAhead .valueExpected
  | none => failHere (.fault .valueExpected)

def wrongKind {α : Type} (expected : String) : Reader α := do
  let f ← found
  failHere (.problem (.wrongKind f expected))

end Vitae.Json.Reader
