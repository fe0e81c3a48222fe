import Vitae.Tex.Markup
import Vitae.Text.Blank
import Vitae.Text.Search

/-!
# Link targets

A target is the first argument of `\href`. `url?` and `mailto?` make one of what a user typed, or nothing
where nothing usable is left. A character that could close the argument or start a command is written as
the percent signs of its bytes, and percent signs and hashes carry a backslash, as hyperref expects.
-/

namespace Vitae.Tex.Target

open Text

def unsafeChars : List Char :=
  ['\\', '{', '}', '^', '<', '>', '"', '`']

def hexDigit (n : Nat) : Char :=
  if n < 10 then Char.ofNat (48 + n) else Char.ofNat (55 + n)

def percentByte (b : UInt8) : Tex :=
  ['\\', '%', hexDigit (b.toNat / 16), hexDigit (b.toNat % 16)]

def encodeChar (c : Char) : Tex :=
  if c = '%' then ['\\', '%']
  else if c = '#' then ['\\', '#']
  else if unsafeChars.contains c || isBlank c then (String.utf8EncodeChar c).flatMap percentByte
  else [c]

def encode (s : List Char) : Tex :=
  s.flatMap encodeChar

def clean (s : List Char) : List Char :=
  (trim s).filter (!isControl ·)

def hasScheme (s : List Char) : Bool :=
  hasInfix "://".toList s
    || (stripPrefixNoCase? "mailto:".toList s).isSome
    || (stripPrefixNoCase? "tel:".toList s).isSome

def url? (s : List Char) : Option Tex :=
  let address := clean s
  if address.isEmpty then none
  else some (encode (if hasScheme address then address else "https://".toList ++ address))

def mailto? (s : List Char) : Option Tex :=
  let address := clean s
  let address := trim ((stripPrefixNoCase? "mailto:".toList address).getD address)
  if address.isEmpty then none
  else some ("mailto:".toList ++ encode address)

def href (target label : Tex) : Tex :=
  control "href" ++ braced target ++ braced label

@[simp] theorem encode_nil : encode [] = [] := rfl

@[simp] theorem encode_append (s t : List Char) : encode (s ++ t) = encode s ++ encode t := by
  simp [encode]

theorem encodeChar_ne_nil (c : Char) : encodeChar c ≠ [] := by
  have bytes : String.utf8EncodeChar c ≠ [] := by
    rw [← List.length_pos_iff, String.length_utf8EncodeChar]
    exact Char.utf8Size_pos c
  unfold encodeChar
  split
  · simp
  · split
    · simp
    · split
      · simpa [percentByte] using List.exists_mem_of_ne_nil _ bytes
      · simp

@[simp] theorem encode_eq_nil_iff {s : List Char} : encode s = [] ↔ s = [] := by
  cases s with
  | nil => simp
  | cons c s => simp [encode, encodeChar_ne_nil]

theorem url?_ne_nil {s : List Char} {t : Tex} (h : url? s = some t) : t ≠ [] := by
  unfold url? at h
  dsimp only at h
  split at h
  · cases h
  · case isFalse present =>
    cases h
    rw [Ne, encode_eq_nil_iff]
    split
    · simpa using present
    · simp

theorem mailto?_ne_nil {s : List Char} {t : Tex} (h : mailto? s = some t) : t ≠ [] := by
  unfold mailto? at h
  dsimp only at h
  split at h
  · cases h
  · cases h
    simp

theorem url?_eq_none_iff {s : List Char} : url? s = none ↔ clean s = [] := by
  unfold url?
  rw [← List.isEmpty_iff]
  by_cases h : (clean s).isEmpty = true
  · simp only [h, if_true]
  · simp only [h, if_false, reduceCtorEq]

end Vitae.Tex.Target
