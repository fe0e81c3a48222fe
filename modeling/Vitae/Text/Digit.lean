namespace Vitae.Text

def decimalDigits (n : Nat) : List Char :=
  Nat.toDigits 10 n

def hexDigits (n : Nat) : List Char :=
  Nat.toDigits 16 n

def digitValue (c : Char) : Nat :=
  c.toNat - '0'.toNat

def hexValue? (c : Char) : Option Nat :=
  if c.isDigit then some (digitValue c)
  else if 'a' ≤ c && c ≤ 'f' then some (c.toNat - 'a'.toNat + 10)
  else if 'A' ≤ c && c ≤ 'F' then some (c.toNat - 'A'.toNat + 10)
  else none

end Vitae.Text
