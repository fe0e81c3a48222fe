namespace Vitae

structure Binary64 where
  mantissa : Nat
  exponent : Int
  deriving DecidableEq, Repr, Inhabited

namespace Binary64

def precision : Nat := 53

def leastExponent : Int := -1074

def greatestExponent : Int := 971

def zero : Binary64 := ⟨0, leastExponent⟩

def roundedQuotient (n d : Nat) : Nat :=
  let floor := n / d
  let twice := 2 * (n % d)
  if twice > d || (twice == d && floor % 2 == 1) then floor + 1 else floor

def inUnits (n d : Nat) (e : Int) : Nat × Nat :=
  (n * Nat.pow 2 (-e).toNat, d * Nat.pow 2 e.toNat)

def unitExponent (n d : Nat) : Int :=
  let guess : Int := max leastExponent (n.log2 - d.log2 - precision)
  let (n', d') := inUnits n d guess
  if n' / d' < Nat.pow 2 precision then guess else guess + 1

/-- The number nearest to `n / d`, or nothing beyond the greatest number. -/
def ofRatio? (n d : Nat) : Option Binary64 :=
  if n = 0 then some zero
  else
    let e := unitExponent n d
    let (n', d') := inUnits n d e
    let m := roundedQuotient n' d'
    let x : Binary64 := if m = Nat.pow 2 precision then ⟨Nat.pow 2 (precision - 1), e + 1⟩ else ⟨m, e⟩
    if greatestExponent < x.exponent then none else some x

def ratio (x : Binary64) : Nat × Nat :=
  (x.mantissa * Nat.pow 2 x.exponent.toNat, Nat.pow 2 (-x.exponent).toNat)

def ofNat? (n : Nat) : Option Binary64 :=
  ofRatio? n 1

def mul? (x y : Binary64) : Option Binary64 :=
  ofRatio? (x.ratio.1 * y.ratio.1) (x.ratio.2 * y.ratio.2)

def div? (x y : Binary64) : Option Binary64 :=
  ofRatio? (x.ratio.1 * y.ratio.2) (x.ratio.2 * y.ratio.1)

end Binary64

end Vitae
