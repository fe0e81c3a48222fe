namespace Vitae.Text

/-- The code points of the Unicode property White_Space, as inclusive ranges. -/
def blankRanges : List (Nat × Nat) :=
  [(0x09, 0x0D), (0x20, 0x20), (0x85, 0x85), (0xA0, 0xA0), (0x1680, 0x1680), (0x2000, 0x200A),
    (0x2028, 0x2029), (0x202F, 0x202F), (0x205F, 0x205F), (0x3000, 0x3000)]

def isBlank (c : Char) : Bool :=
  blankRanges.any fun r => r.1 ≤ c.toNat && c.toNat ≤ r.2

def isControl (c : Char) : Bool :=
  c.toNat < 0x20 || (0x7F ≤ c.toNat && c.toNat ≤ 0x9F)

def trimStart (s : List Char) : List Char :=
  s.dropWhile isBlank

def trimEnd (s : List Char) : List Char :=
  (s.reverse.dropWhile isBlank).reverse

def trim (s : List Char) : List Char :=
  trimEnd (trimStart s)

def allBlank (s : List Char) : Bool :=
  s.all isBlank

/-! ## What trimming keeps -/

@[simp] theorem trimStart_nil : trimStart [] = [] := rfl

@[simp] theorem trimEnd_nil : trimEnd [] = [] := rfl

@[simp] theorem trim_nil : trim [] = [] := rfl

theorem trimEnd_append {s : List Char} {c : Char} (h : isBlank c = false) (t : List Char) :
    trimEnd (s ++ c :: t) = s ++ c :: trimEnd t := by
  simp only [trimEnd, List.reverse_append, List.reverse_cons, List.append_assoc, List.singleton_append]
  rw [List.dropWhile_append]
  split
  · rename_i he
    simp only [List.isEmpty_iff] at he
    simp [he, h]
  · simp

theorem trim_eq_nil_iff {s : List Char} : trim s = [] ↔ allBlank s = true := by
  induction s with
  | nil => simp [allBlank]
  | cons c s ih =>
    cases h : isBlank c
    · have : trim (c :: s) = c :: trimEnd s := by
        have := trimEnd_append (s := []) h s
        simpa [trim, trimStart, h] using this
      simp [this, allBlank, h]
    · simpa [trim, trimStart, h, allBlank] using ih

end Vitae.Text
