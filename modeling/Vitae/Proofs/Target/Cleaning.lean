import Vitae.Proofs.Target.Scheme
import Vitae.Proofs.Text.Trimming

namespace Vitae.Tex.Target

open Text

def normalForm (s : List Char) : List Char :=
  trim (s.filter (!isControl ·))

theorem normalForm_eq (s : List Char) : normalForm s = trim (clean s) :=
  (trim_filter_trim _ s).symm

theorem clean_normalForm (s : List Char) : clean (normalForm s) = normalForm s := by
  rw [clean, normalForm, trim_trim, List.filter_eq_self]
  exact fun c mem => (List.mem_filter.mp (mem_of_mem_trim mem)).2

theorem url?_congr {s t : List Char} (h : clean s = clean t) : url? s = url? t := by
  rw [url?, h, url?]

theorem mailto?_congr {s t : List Char} (h : clean s = clean t) : mailto? s = mailto? t := by
  rw [mailto?, h, mailto?]

/-! ## Blanks that are left over -/

theorem count_encode_withScheme (s : List Char) :
    (encode (withScheme s)).count '\\' = (encode s).count '\\' := by
  rw [withScheme]
  split
  · rfl
  · rw [encode_append, List.count_append]
    exact Nat.zero_add _

theorem eq_nil_of_count_encode {b : List Char} (blank : allBlank b = true)
    (h : (encode b).count '\\' = 0) : b = [] := by
  cases b with
  | nil => rfl
  | cons c b =>
    rw [allBlank, List.all_cons, Bool.and_eq_true] at blank
    obtain ⟨-, visible⟩ | ⟨t, coded⟩ := encodeChar_cases c
    · rw [blank.1] at visible
      cases visible
    · rw [encode, List.flatMap_cons, coded, List.cons_append, List.count_cons_self] at h
      cases h

theorem trim_eq_of_encode_eq {s : List Char}
    (h : encode (withScheme s) = encode (withScheme (trim s))) : trim s = s := by
  obtain ⟨a, b, whole, front, behind⟩ := exists_blank_around s
  -- Each blank at an end is encoded with a backslash, so equal counts leave none.
  have count := congrArg (List.count '\\') h
  rw [count_encode_withScheme, count_encode_withScheme] at count
  conv_lhs at count => rw [whole, encode_append, encode_append, List.count_append, List.count_append]
  have noFront := eq_nil_of_count_encode front (by omega)
  have noBehind := eq_nil_of_count_encode behind (by omega)
  rw [noFront, noBehind, List.append_nil, List.nil_append] at whole
  exact whole.symm

/-- The targets of an address are those of its normal form, and there is none only where that is empty, if
and only if dropping the control characters leaves no blank at an end. -/
theorem targets_normalForm_iff (s : List Char) :
    ((url? s = none ↔ normalForm s = []) ∧ (normalForm s ≠ [] → url? s = url? (normalForm s)) ∧
        mailto? s = mailto? (normalForm s)) ↔
      trim (clean s) = clean s := by
  rw [url?_eq_none_iff]
  constructor
  · rintro ⟨empty, same, -⟩
    by_cases none : normalForm s = []
    · rw [empty.mpr none, trim_nil]
    · have left : url? s = some (encode (withScheme (clean s))) :=
        url?_eq_some_iff.mpr ⟨fun h => none (empty.mp h), rfl⟩
      have right : url? (normalForm s) = some (encode (withScheme (normalForm s))) :=
        url?_eq_some_iff.mpr (by rw [clean_normalForm]; exact ⟨none, rfl⟩)
      have codes := same none
      rw [left, right, Option.some.injEq, normalForm_eq] at codes
      exact trim_eq_of_encode_eq codes
  · intro settled
    have form : normalForm s = clean s := by rw [normalForm_eq, settled]
    have same : clean s = clean (normalForm s) := by rw [clean_normalForm, form]
    exact ⟨by rw [form], fun _ => url?_congr same, mailto?_congr same⟩

theorem targets_blankBehindControl :
    (url? "\x07 \x07".toList = some "https://\\%20".toList ∧ normalForm "\x07 \x07".toList = []) ∧
      (url? "\x07 tel:1".toList = some "https://\\%20tel:1".toList ∧
        url? (normalForm "\x07 tel:1".toList) = some "tel:1".toList) ∧
      mailto? "\x07 mailto:a@b".toList = some "mailto:mailto:a@b".toList ∧
        mailto? (normalForm "\x07 mailto:a@b".toList) = some "mailto:a@b".toList := by
  decide

end Vitae.Tex.Target
