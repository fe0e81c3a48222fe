import Vitae.Proofs.Target.Scheme
import Vitae.Text.Digit

/-!
# What a link target says

A reader takes the backslashes off a target (`unmask`) and then the percent codes off its bytes
(`percentDecode`). A percent sign that no two digits follow stands for itself, so what a code means depends on
the bytes behind it. The codes that a target adds have no part in that: each of them stands for a byte that is
neither a percent sign nor a digit, and starts with a byte that is no digit (`Respells`). So a target says what
the address says that was typed (`meaning_target`).
-/

namespace Vitae.Tex.Target

open Text

/-! ## Reading a target -/

def unmask : Tex → List Char
  | [] => []
  | '\\' :: c :: t => if c = '%' ∨ c = '#' then c :: unmask t else '\\' :: unmask (c :: t)
  | c :: t => c :: unmask t

def utf8 (s : List Char) : List UInt8 :=
  s.flatMap String.utf8EncodeChar

def percentSign : UInt8 := 0x25

def byteDigit? (b : UInt8) : Option Nat :=
  hexValue? (Char.ofNat b.toNat)

def byteOf? (high low : UInt8) : Option UInt8 :=
  (byteDigit? high).bind fun h => (byteDigit? low).map fun l => UInt8.ofNat (16 * h + l)

/-- The bytes with each percent sign that two hexadecimal digits follow taken, with the digits, for the byte
that it stands for. -/
def percentDecode : List UInt8 → List UInt8
  | [] => []
  | b :: high :: low :: bs =>
    if b = percentSign then
      match byteOf? high low with
      | some d => d :: percentDecode bs
      | none => b :: percentDecode (high :: low :: bs)
    else b :: percentDecode (high :: low :: bs)
  | b :: bs => b :: percentDecode bs

def meaning (s : List Char) : List UInt8 :=
  percentDecode (utf8 s)

theorem unmask_cons {c : Char} (ne : c ≠ '\\') (t : Tex) : unmask (c :: t) = c :: unmask t := by
  rw [unmask]
  rintro d r rfl
  exact absurd rfl ne

/-! ## Percent codes -/

def startingByte? : List UInt8 → Option UInt8
  | high :: low :: _ => byteOf? high low
  | _ => none

theorem percentDecode_of_ne {b : UInt8} (ne : b ≠ percentSign) (bs : List UInt8) :
    percentDecode (b :: bs) = b :: percentDecode bs := by
  match bs with
  | [] => rfl
  | [_] => rfl
  | _ :: _ :: _ => rw [percentDecode, if_neg ne]

theorem percentDecode_code {high low d : UInt8} (h : byteOf? high low = some d) (bs : List UInt8) :
    percentDecode (percentSign :: high :: low :: bs) = d :: percentDecode bs := by
  rw [percentDecode, if_pos rfl, h]

theorem percentDecode_sign {bs : List UInt8} (h : startingByte? bs = none) :
    percentDecode (percentSign :: bs) = percentSign :: percentDecode bs := by
  match bs with
  | [] => rfl
  | [_] => rfl
  | high :: low :: bs =>
    rw [startingByte?] at h
    rw [percentDecode, if_pos rfl, h]

theorem digits_of_byteOf? {high low d : UInt8} (h : byteOf? high low = some d) :
    byteDigit? high ≠ none ∧ byteDigit? low ≠ none := by
  unfold byteOf? at h
  cases first : byteDigit? high <;> cases second : byteDigit? low <;> simp_all

def Inert (b : UInt8) : Prop :=
  b ≠ percentSign ∧ byteDigit? b = none

/-- The bytes on the left are those on the right with codes for some of the inert bytes. -/
inductive Respells : List UInt8 → List UInt8 → Prop where
  | nil : Respells [] []
  | keep (b : UInt8) {s t : List UInt8} (rest : Respells s t) : Respells (b :: s) (b :: t)
  | code {high low b : UInt8} {s t : List UInt8} (inert : Inert b) (digits : byteOf? high low = some b)
      (rest : Respells s t) : Respells (percentSign :: high :: low :: s) (b :: t)

theorem byteDigit?_percentSign : byteDigit? percentSign = none := by
  decide

theorem Respells.of_percentSign {s t : List UInt8} (h : Respells s (percentSign :: t)) :
    ∃ r, s = percentSign :: r ∧ Respells r t := by
  cases h with
  | keep _ rest => exact ⟨_, rfl, rest⟩
  | code inert => exact absurd rfl inert.1

theorem Respells.of_digit {b : UInt8} {s t : List UInt8} (h : Respells s (b :: t))
    (digit : byteDigit? b ≠ none) : ∃ r, s = b :: r ∧ Respells r t := by
  cases h with
  | keep _ rest => exact ⟨_, rfl, rest⟩
  | code inert => exact absurd inert.2 digit

theorem Respells.startingByte?_eq_none {s t : List UInt8} (h : Respells s t)
    (loose : startingByte? t = none) : startingByte? s = none := by
  cases h with
  | nil => rfl
  | code => rfl
  | keep b rest =>
    cases rest with
    | nil => rfl
    | keep => exact loose
    -- The first digit may be there, but the sign of the code stands where the second would.
    | code =>
      rw [startingByte?, byteOf?, byteDigit?_percentSign]
      cases byteDigit? b <;> rfl

theorem Respells.percentDecode_cons {b : UInt8} {s bs : List UInt8} (h : Respells s (b :: bs))
    (loose : b = percentSign → startingByte? bs = none)
    (ih : ∀ {s}, Respells s bs → percentDecode s = percentDecode bs) :
    percentDecode s = b :: percentDecode bs := by
  cases h with
  | keep _ rest =>
    by_cases sign : b = percentSign
    · subst sign
      rw [percentDecode_sign (rest.startingByte?_eq_none (loose rfl)), ih rest]
    · rw [percentDecode_of_ne sign, ih rest]
  | code _ digits rest => rw [percentDecode_code digits, ih rest]

theorem Respells.percentDecode_eq {s t : List UInt8} (h : Respells s t) :
    percentDecode s = percentDecode t := by
  fun_induction percentDecode t generalizing s with
  | case1 =>
    cases h
    rfl
  | case2 high low bs d digits ih =>
    -- neither the sign nor its digits are inert, so all three stand on the left as well
    obtain ⟨digitHigh, digitLow⟩ := digits_of_byteOf? digits
    obtain ⟨_, rfl, behindSign⟩ := h.of_percentSign
    obtain ⟨_, rfl, behindHigh⟩ := behindSign.of_digit digitHigh
    obtain ⟨_, rfl, behindLow⟩ := behindHigh.of_digit digitLow
    rw [percentDecode_code digits, ih behindLow]
  | case3 high low bs loose ih => exact h.percentDecode_cons (fun _ => loose) ih
  | case4 b high low bs ne ih => exact h.percentDecode_cons (fun sign => absurd sign ne) ih
  | case5 b bs short ih =>
    refine h.percentDecode_cons (fun _ => ?_) ih
    match bs with
    | [] => rfl
    | [_] => rfl
    | high :: low :: rest => exact absurd rfl (short high low rest)

/-! ## Encoding -/

theorem mem_utf8EncodeChar {c : Char} {b : UInt8} (h : b ∈ String.utf8EncodeChar c) :
    (c.toNat < 128 ∧ b = UInt8.ofNat c.toNat) ∨ 128 ≤ b.toNat := by
  unfold String.utf8EncodeChar at h
  dsimp only at h
  split at h
  · case isTrue small =>
    exact .inl ⟨Nat.lt_succ_of_le small, List.mem_singleton.mp h⟩
  · right
    split at h
    · simp only [List.mem_cons, List.not_mem_nil, or_false] at h
      obtain rfl | rfl := h <;> rw [UInt8.toNat_ofNat'] <;> omega
    · split at h
      · simp only [List.mem_cons, List.not_mem_nil, or_false] at h
        obtain rfl | rfl | rfl := h <;> rw [UInt8.toNat_ofNat'] <;> omega
      · simp only [List.mem_cons, List.not_mem_nil, or_false] at h
        obtain rfl | rfl | rfl | rfl := h <;> rw [UInt8.toNat_ofNat'] <;> omega

instance (b : UInt8) : Decidable (Inert b) :=
  inferInstanceAs (Decidable (_ ∧ _))

theorem inert_of_encoded {c : Char} (h : unsafeChars.contains c = true ∨ isBlank c = true) :
    ∀ b ∈ String.utf8EncodeChar c, Inert b := by
  have ascii : ∀ n < 128, (unsafeChars.contains (Char.ofNat n) = true ∨ isBlank (Char.ofNat n) = true) →
      Inert (UInt8.ofNat n) := by
    decide
  have high : ∀ n < 256, 128 ≤ n → Inert (UInt8.ofNat n) := by
    decide +kernel
  intro b mem
  obtain ⟨small, rfl⟩ | large := mem_utf8EncodeChar mem
  · rw [← Char.ofNat_toNat c] at h
    exact ascii _ small h
  · have := high b.toNat b.toNat_lt large
    rwa [UInt8.ofNat_toNat] at this

theorem byteOf?_hexDigit : ∀ h < 16, ∀ l < 16,
    byteOf? (UInt8.ofNat (hexDigit h).toNat) (UInt8.ofNat (hexDigit l).toNat) =
      some (UInt8.ofNat (16 * h + l)) := by
  decide

theorem hexDigit_spec : ∀ n < 16, hexDigit n ≠ '\\' ∧
    String.utf8EncodeChar (hexDigit n) = [UInt8.ofNat (hexDigit n).toNat] := by
  decide

theorem exists_code (b : UInt8) : ∃ high low, byteOf? high low = some b ∧
    ∀ t, utf8 (unmask (percentByte b ++ t)) = percentSign :: high :: low :: utf8 (unmask t) := by
  have bound := b.toNat_lt
  have high := hexDigit_spec (b.toNat / 16) (by omega)
  have low := hexDigit_spec (b.toNat % 16) (by omega)
  have digits := byteOf?_hexDigit (b.toNat / 16) (by omega) (b.toNat % 16) (by omega)
  rw [Nat.div_add_mod, UInt8.ofNat_toNat] at digits
  refine ⟨_, _, digits, fun t => ?_⟩
  have shown : unmask (percentByte b ++ t) =
      '%' :: hexDigit (b.toNat / 16) :: hexDigit (b.toNat % 16) :: unmask t := by
    rw [← unmask_cons low.1, ← unmask_cons high.1]
    rfl
  rw [shown, utf8, List.flatMap_cons, List.flatMap_cons, List.flatMap_cons, high.2, low.2, ← utf8]
  rfl

theorem respells_codes {bytes : List UInt8} (inert : ∀ b ∈ bytes, Inert b) {t : Tex} {bs : List UInt8}
    (rest : Respells (utf8 (unmask t)) bs) :
    Respells (utf8 (unmask (bytes.flatMap percentByte ++ t))) (bytes ++ bs) := by
  induction bytes with
  | nil => exact rest
  | cons b bytes ih =>
    rw [List.forall_mem_cons] at inert
    obtain ⟨high, low, digits, written⟩ := exists_code b
    rw [List.flatMap_cons, List.append_assoc, written]
    exact .code inert.1 digits (ih inert.2)

theorem Respells.append_left (l : List UInt8) {s t : List UInt8} (h : Respells s t) :
    Respells (l ++ s) (l ++ t) := by
  induction l with
  | nil => exact h
  | cons b l ih => exact .keep b ih

theorem respells_encode (s : List Char) : Respells (utf8 (unmask (encode s))) (utf8 s) := by
  induction s with
  | nil => exact .nil
  | cons c s ih =>
    -- A percent sign and a hash get a backslash, which is taken off again.
    have kept : Respells (utf8 (c :: unmask (encode s))) (utf8 (c :: s)) := ih.append_left _
    rw [encode, List.flatMap_cons, ← encode]
    unfold encodeChar
    split
    · case isTrue sign =>
      subst sign
      exact kept
    · split
      · case isTrue sign =>
        subst sign
        exact kept
      · split
        · case isTrue encoded =>
          rw [Bool.or_eq_true] at encoded
          exact respells_codes (inert_of_encoded encoded) ih
        · case isFalse plain =>
          have ne : c ≠ '\\' := by
            rintro rfl
            exact plain (by decide)
          rw [List.singleton_append, unmask_cons ne]
          exact kept

theorem meaning_unmask_encode (s : List Char) : meaning (unmask (encode s)) = meaning s :=
  (respells_encode s).percentDecode_eq

/-- The target of a page says what the address says with a scheme in front, and that of a mail address what
the mailbox says. -/
theorem meaning_target (s : List Char) :
    (∀ t, url? s = some t → meaning (unmask t) = meaning (withScheme (clean s))) ∧
      ∀ t, mailto? s = some t →
        ∃ r, t = "mailto:".toList ++ r ∧ meaning (unmask r) = meaning (mailbox (clean s)) := by
  constructor
  · intro t target
    obtain ⟨-, rfl⟩ := url?_eq_some_iff.mp target
    exact meaning_unmask_encode _
  · intro t target
    obtain ⟨-, rfl⟩ := mailto?_eq_some_iff.mp target
    exact ⟨_, rfl, meaning_unmask_encode _⟩

theorem meaning_target_halfCodes :
    let s := "Mailto:%4\x7b%7b#é%\\".toList
    let t := "\\%4\\%7B\\%7b\\#é\\%\\%5C".toList
    url? s = some ("Mailto:".toList ++ t) ∧
      meaning (unmask ("Mailto:".toList ++ t)) = meaning (withScheme (clean s)) ∧
      mailto? s = some ("mailto:".toList ++ t) ∧
      (∃ r, "mailto:".toList ++ t = "mailto:".toList ++ r ∧
        meaning (unmask r) = meaning (mailbox (clean s))) ∧
      meaning (unmask t) = utf8 "%4\x7b\x7b#é%\\".toList := by
  intro s t
  have page : url? s = some ("Mailto:".toList ++ t) := by decide
  have mail : mailto? s = some ("mailto:".toList ++ t) := by decide
  have ⟨ofPage, ofMail⟩ := meaning_target s
  exact ⟨page, ofPage _ page, mail, ofMail _ mail, by decide⟩

end Vitae.Tex.Target
