namespace Vitae.Text

/-- What a leading byte announces: how many bytes follow, and the range the first of them lies in. -/
structure Lead where
  following : Nat
  low : UInt8
  high : UInt8
  deriving Repr, DecidableEq

def lead? (b : UInt8) : Option Lead :=
  if 0xC2 ≤ b && b ≤ 0xDF then some ⟨1, 0x80, 0xBF⟩
  else if b == 0xE0 then some ⟨2, 0xA0, 0xBF⟩
  else if b == 0xED then some ⟨2, 0x80, 0x9F⟩
  else if 0xE1 ≤ b && b ≤ 0xEF then some ⟨2, 0x80, 0xBF⟩
  else if b == 0xF0 then some ⟨3, 0x90, 0xBF⟩
  else if 0xF1 ≤ b && b ≤ 0xF3 then some ⟨3, 0x80, 0xBF⟩
  else if b == 0xF4 then some ⟨3, 0x80, 0x8F⟩
  else none

def Lead.value (l : Lead) (b : UInt8) : Nat :=
  b.toNat % Nat.pow 2 (6 - l.following)

def replacement : Char := '\uFFFD'

/-- Reads at most `n` continuation bytes, the first in `low … high`, onto the value `v`. The Boolean says
whether all were there. -/
def continuation : Nat → UInt8 → UInt8 → Nat → List UInt8 → Bool × Nat × List UInt8
  | 0, _, _, v, bs => (true, v, bs)
  | _ + 1, _, _, v, [] => (false, v, [])
  | n + 1, low, high, v, b :: bs =>
    if low ≤ b && b ≤ high then continuation n 0x80 0xBF (v * 64 + b.toNat % 64) bs
    else (false, v, b :: bs)

theorem continuation_length_le (n : Nat) (low high : UInt8) (v : Nat) (bs : List UInt8) :
    (continuation n low high v bs).2.2.length ≤ bs.length := by
  fun_induction continuation n low high v bs <;> simp_all
  omega

def decodeLossy : List UInt8 → List Char
  | [] => []
  | b :: bs =>
    if b < 0x80 then Char.ofNat b.toNat :: decodeLossy bs
    else match lead? b with
      | none => replacement :: decodeLossy bs
      | some l =>
        have h := continuation_length_le l.following l.low l.high (l.value b) bs
        match hr : continuation l.following l.low l.high (l.value b) bs with
        | (complete, v, rest) =>
          have : rest.length ≤ bs.length := by rw [hr] at h; exact h
          (if complete then Char.ofNat v else replacement) :: decodeLossy rest
  termination_by bs => bs.length
  decreasing_by all_goals simp only [List.length_cons]; omega

end Vitae.Text
