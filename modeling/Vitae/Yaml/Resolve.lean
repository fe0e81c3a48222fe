import Vitae.Profile.Problem
import Vitae.Yaml.Node

namespace Vitae.Yaml

open Profile (Found Floating)

def isNull (s : List Char) : Bool :=
  ["null", "Null", "NULL", "~"].any (·.toList == s)

def truth? (s : List Char) : Option Bool :=
  if ["true", "True", "TRUE"].any (·.toList == s) then some true
  else if ["false", "False", "FALSE"].any (·.toList == s) then some false
  else none

def dropSign (c : Char) : List Char → List Char
  | d :: s => if d = c then s else d :: s
  | [] => []

def hasSign (s : List Char) : Bool :=
  s.head?.any fun c => c == '+' || c == '-'

def isPadded (s : List Char) : Bool :=
  let digits := if hasSign s then s.drop 1 else s
  1 < digits.length && digits.head? == some '0' && digits.all Char.isDigit

/-! ## Integers -/

def number? (base : Nat) (s : List Char) : Option Nat :=
  if s.isEmpty then none
  else s.foldl (fun n c => do
    let d ← Text.hexValue? c
    if d < base then return (← n) * base + d else none) (some 0)

def basedNumber? : List Char → Option Nat
  | '0' :: 'x' :: s => number? 16 s
  | '0' :: 'o' :: s => number? 8 s
  | '0' :: 'b' :: s => number? 2 s
  | _ => none

def integer? (s : List Char) : Option Int :=
  let magnitude? (s digits : List Char) : Option Nat :=
    match basedNumber? digits with
    | some n => some n
    | none => if isPadded s then none else number? 10 digits
  match s with
  | '-' :: digits => (magnitude? s digits).map fun n => -(n : Int)
  | _ => (magnitude? s (dropSign '+' s)).map fun n => (n : Int)

def integerValue? (s : List Char) : Option Found :=
  match integer? s with
  | none => none
  | some n =>
    if -Int.pow 2 63 ≤ n && n < Int.pow 2 64 then some (.integer n)
    else if -Int.pow 2 127 ≤ n && n < Int.pow 2 128 then some (.wideInteger n)
    else none

/-! ## Numbers with a fraction -/

def exponent? (s : List Char) : Option Int :=
  match s with
  | '-' :: digits => (number? 10 digits).map fun n => -(n : Int)
  | _ => (number? 10 (dropSign '+' s)).map fun n => (n : Int)

def decimal? (s : List Char) : Option (Nat × Int) := do
  let whole := s.takeWhile Char.isDigit
  let rest := s.dropWhile Char.isDigit
  let (fraction, rest) := match rest with
    | '.' :: r => (r.takeWhile Char.isDigit, r.dropWhile Char.isDigit)
    | _ => ([], rest)
  let coefficient ← number? 10 (whole ++ fraction)
  let e : Int ← match rest with
    | [] => some 0
    | c :: r => if c = 'e' || c = 'E' then exponent? r else none
  return (coefficient, e - fraction.length)

/-- The binary64 number nearest to `n * 10 ^ k`. Far outside the range of such numbers the power is not worked
out. -/
def nearest? (n : Nat) (k : Int) : Option Binary64 :=
  let place : Int := (Text.decimalDigits n).length + k
  if n = 0 || place < -400 then some .zero
  else if 400 < place then none
  else Binary64.ofRatio? (n * Nat.pow 10 k.toNat) (Nat.pow 10 (-k).toNat)

def float? (s : List Char) : Option Floating :=
  let unsigned := if s.head? == some '+' then s.drop 1 else s
  if s.head? == some '+' && hasSign unsigned then none
  else if [".inf", ".Inf", ".INF"].any (·.toList == unsigned) then some (.infinite false)
  else if ["-.inf", "-.Inf", "-.INF"].any (·.toList == s) then some (.infinite true)
  else if [".nan", ".NaN", ".NAN"].any (·.toList == s) then some .undefined
  else do
    let negative := unsigned.head? == some '-'
    let (n, k) ← decimal? (if negative then unsigned.drop 1 else unsigned)
    return .finite negative (← nearest? n k)

/-! ## Scalars -/

def plainValue (s : List Char) : Found :=
  if s.isEmpty || isNull s then .null
  else match truth? s with
    | some b => .bool b
    | none =>
      match integerValue? s with
      | some n => n
      | none =>
        match if isPadded s then none else float? s with
        | some x => .float x
        | none => .string s

def coreTag (name : String) : Tag :=
  Tag.ofChars ("tag:yaml.org,2002:" ++ name).toList

/-- What a scalar stands for with its tag. A tag that asks for a kind of value which the text is not gives
that kind. -/
def scalarValue (tag : Option Tag) (plain : Bool) (s : List Char) : Except String Found :=
  match tag with
  | none => .ok (if plain then plainValue s else .string s)
  | some t =>
    if t = coreTag "bool" then ((truth? s).map Found.bool).elim (.error "a boolean") .ok
    else if t = coreTag "int" then (integerValue? s).elim (.error "an integer") .ok
    else if t = coreTag "float" then ((float? s).map Found.float).elim (.error "a float") .ok
    else if t = coreTag "null" then if isNull s then .ok .null else .error "null"
    else if t.take 1 = Tag.ofChars ['!'] && plain then .ok (plainValue s)
    else .ok (.string s)

end Vitae.Yaml
