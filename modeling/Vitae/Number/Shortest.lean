import Vitae.Number.Binary64
import Vitae.Text.Digit

/-!
# Shortest decimals

The decimal with the fewest digits that rounds to a given binary number, and of those the nearest to it:
`Binary64.shortest` looks on coarser and finer decimal grids for a point in the interval of the numbers that
round to it. `FloatStyle` says how such a decimal is written.
-/

namespace Vitae

open Text (decimalDigits)

structure Decimal where
  coefficient : Nat
  exponent : Int
  deriving DecidableEq, Repr, Inhabited

namespace Binary64

def quarter (x : Binary64) : Nat × Nat :=
  (Nat.pow 2 (x.exponent - 2).toNat, Nat.pow 2 (2 - x.exponent).toNat)

/-- How many quarters of a unit the number nearest below is away, halved. -/
def reachBelow (x : Binary64) : Nat :=
  if x.mantissa = Nat.pow 2 (precision - 1) && leastExponent < x.exponent then 1 else 2

/-- Whether `n / d`, counted in quarters of the unit in the last place, rounds to the number. -/
def roundsTo (x : Binary64) (n d : Nat) : Bool :=
  let low := (4 * x.mantissa - x.reachBelow) * d
  let high := (4 * x.mantissa + 2) * d
  if x.mantissa % 2 = 0 then low ≤ n && n ≤ high else low < n && n < high

def onGrid? (x : Binary64) (k : Int) : Option Nat :=
  let (up, down) := x.quarter
  let unit := Nat.pow 10 k.toNat * down
  let one := Nat.pow 10 (-k).toNat * up
  let value := 4 * x.mantissa * one
  let below := value / unit
  let farther := 2 * (value % unit) > unit || (2 * (value % unit) == unit && below % 2 == 1)
  let (first, second) := if farther then (below + 1, below) else (below, below + 1)
  if x.roundsTo (first * unit) one then some first
  else if x.roundsTo (second * unit) one then some second
  else none

def magnitude (x : Binary64) : Int :=
  let (n, d) := x.ratio
  if d ≤ n then (decimalDigits (n / d)).length
  else 1 - (decimalDigits (d / n)).length

def shortest (x : Binary64) : Decimal :=
  if x.mantissa = 0 then ⟨0, 0⟩
  else
    let exponents := (List.range 20).map fun (i : Nat) => x.magnitude - i
    (exponents.findSome? fun k => (x.onGrid? k).map (⟨·, k⟩)).getD ⟨0, 0⟩

end Binary64

structure FloatStyle where
  positionalFrom : Option Int
  positionalTo : Option Int
  plusSign : Bool

namespace Decimal

def positional (x : Decimal) : List Char :=
  let digits := decimalDigits x.coefficient
  let point : Int := digits.length + x.exponent
  if point ≤ 0 then "0.".toList ++ List.replicate (-point).toNat '0' ++ digits
  else if x.exponent < 0 then digits.take point.toNat ++ '.' :: digits.drop point.toNat
  else digits ++ List.replicate x.exponent.toNat '0' ++ ".0".toList

def scientific (style : FloatStyle) (x : Decimal) : List Char :=
  let digits := decimalDigits x.coefficient
  let place : Int := digits.length + x.exponent - 1
  let sign := if place < 0 then ['-'] else if style.plusSign then ['+'] else []
  let fraction := if digits.length ≤ 1 then [] else '.' :: digits.drop 1
  digits.take 1 ++ fraction ++ 'e' :: (sign ++ decimalDigits place.natAbs)

def text (style : FloatStyle) (x : Decimal) : List Char :=
  let place : Int := (decimalDigits x.coefficient).length + x.exponent - 1
  if style.positionalFrom.all (· ≤ place) && style.positionalTo.all (place ≤ ·) then x.positional
  else x.scientific style

end Decimal

end Vitae
