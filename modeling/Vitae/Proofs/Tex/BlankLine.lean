import Vitae.Proofs.Tex.Decoding

namespace Vitae.Tex

open Text

variable {s t : List Char} {fresh : Bool}

/-- A line end, nothing but blanks, and another line end. -/
def HasBlankLine (s : List Char) : Prop :=
  ∃ a b c, s = a ++ '\n' :: (b ++ '\n' :: c) ∧ allBlank b = true

def StartsBlankLine (s : List Char) : Prop :=
  ∃ b c, s = b ++ '\n' :: c ∧ allBlank b = true

/-- `HasBlankLine` by one walk. The flag tells that nothing but blanks stands behind the last line end. -/
def breaksParagraph (fresh : Bool) : List Char → Bool
  | [] => false
  | c :: s => if c = '\n' then fresh || breaksParagraph true s else breaksParagraph (fresh && isBlank c) s

theorem hasBlankLine_cons {c : Char} : HasBlankLine (c :: s) ↔ HasBlankLine s ∨ c = '\n' ∧ StartsBlankLine s := by
  constructor
  · rintro ⟨_ | ⟨e, a⟩, b, r, cut, blank⟩
    · obtain ⟨rfl, rfl⟩ := List.cons.inj cut
      exact .inr ⟨rfl, b, r, rfl, blank⟩
    · obtain ⟨rfl, rfl⟩ := List.cons.inj cut
      exact .inl ⟨a, b, r, rfl, blank⟩
  · rintro (⟨a, b, r, rfl, blank⟩ | ⟨rfl, b, r, rfl, blank⟩)
    · exact ⟨c :: a, b, r, rfl, blank⟩
    · exact ⟨[], b, r, rfl, blank⟩

theorem startsBlankLine_cons {c : Char} :
    StartsBlankLine (c :: s) ↔ c = '\n' ∨ isBlank c = true ∧ StartsBlankLine s := by
  constructor
  · rintro ⟨_ | ⟨e, b⟩, r, cut, blank⟩
    · exact .inl (List.cons.inj cut).1
    · obtain ⟨rfl, rfl⟩ := List.cons.inj cut
      rw [allBlank, List.all_cons, Bool.and_eq_true] at blank
      exact .inr ⟨blank.1, b, r, rfl, blank.2⟩
  · rintro (rfl | ⟨blankC, b, r, rfl, blank⟩)
    · exact ⟨[], s, rfl, rfl⟩
    · refine ⟨c :: b, r, rfl, ?_⟩
      rw [allBlank, List.all_cons, blankC]
      exact blank

theorem breaksParagraph_iff :
    breaksParagraph fresh s = true ↔ HasBlankLine s ∨ fresh = true ∧ StartsBlankLine s := by
  induction s generalizing fresh with
  | nil => simp [breaksParagraph, HasBlankLine, StartsBlankLine]
  | cons c s ih =>
    rw [breaksParagraph, hasBlankLine_cons, startsBlankLine_cons]
    by_cases feed : c = '\n'
    · simp only [feed, if_true, Bool.or_eq_true, ih, true_and, true_or, and_true]
      exact or_comm
    · simp only [feed, if_false, Bool.and_eq_true, ih, false_and, false_or, or_false, and_assoc]

theorem hasBlankLine_iff : HasBlankLine s ↔ breaksParagraph false s = true := by
  simp [breaksParagraph_iff]

instance : DecidablePred HasBlankLine :=
  fun _ => decidable_of_iff _ hasBlankLine_iff.symm

/-! ## Texts put together -/

theorem breaksParagraph_append_visible {c : Char} (visible : isBlank c = false) (t : List Char) :
    breaksParagraph fresh (s ++ c :: t) = (breaksParagraph fresh s || breaksParagraph false t) := by
  have noFeed : c ≠ '\n' := by
    rintro rfl
    cases visible
  induction s generalizing fresh with
  | nil => simp [breaksParagraph, noFeed, visible]
  | cons d s ih =>
    rw [List.cons_append, breaksParagraph, breaksParagraph, ih, ih]
    split
    · rw [Bool.or_assoc]
    · rfl

theorem hasBlankLine_append_visible {c : Char} (visible : isBlank c = false) :
    HasBlankLine (s ++ c :: t) ↔ HasBlankLine s ∨ HasBlankLine t := by
  simp only [hasBlankLine_iff, breaksParagraph_append_visible visible, Bool.or_eq_true]

theorem hasBlankLine_append_of_not_mem (whole : '\n' ∉ s) : HasBlankLine (s ++ t) ↔ HasBlankLine t := by
  rw [hasBlankLine_iff, hasBlankLine_iff]
  induction s with
  | nil => rfl
  | cons c s ih =>
    rw [List.mem_cons, not_or] at whole
    rw [List.cons_append, breaksParagraph, if_neg (Ne.symm whole.1), Bool.false_and, ih whole.2]

theorem breaksParagraph_of_not_mem (whole : '\n' ∉ s) : breaksParagraph fresh s = false := by
  induction s generalizing fresh with
  | nil => rfl
  | cons c s ih =>
    rw [List.mem_cons, not_or] at whole
    rw [breaksParagraph, if_neg (Ne.symm whole.1), ih whole.2]

theorem hasBlankLine_append_line (whole : '\n' ∉ t) : HasBlankLine (s ++ t) ↔ HasBlankLine s := by
  have walk (fresh : Bool) : breaksParagraph fresh (s ++ t) = breaksParagraph fresh s := by
    induction s generalizing fresh with
    | nil => exact breaksParagraph_of_not_mem whole
    | cons c s ih => rw [List.cons_append, breaksParagraph, breaksParagraph, ih, ih]
  rw [hasBlankLine_iff, walk, ← hasBlankLine_iff]

theorem not_hasBlankLine (whole : '\n' ∉ s) : ¬HasBlankLine s := by
  rw [hasBlankLine_iff, breaksParagraph_of_not_mem whole]
  exact Bool.false_ne_true

/-! ## Escaped texts -/

theorem breaksParagraph_escapeChar (c : Char) (t : Tex) :
    breaksParagraph fresh (escapeChar c ++ t) = breaksParagraph fresh (c :: t) := by
  -- A form is as visible as its character and has no line end in it.
  unfold escapeChar
  split
  case h_11 => rfl
  all_goals cases fresh <;> rfl

theorem hasBlankLine_escape : HasBlankLine (escape s) ↔ HasBlankLine s := by
  have walk (fresh : Bool) : breaksParagraph fresh (escape s) = breaksParagraph fresh s := by
    induction s generalizing fresh with
    | nil => rfl
    | cons c s ih =>
      have piece : escape (c :: s) = escapeChar c ++ escape s := List.flatMap_cons
      rw [piece, breaksParagraph_escapeChar, breaksParagraph, breaksParagraph, ih, ih]
  rw [hasBlankLine_iff, walk, ← hasBlankLine_iff]

end Vitae.Tex
