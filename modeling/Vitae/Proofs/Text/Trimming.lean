import Vitae.Proofs.Text.Solid
import Vitae.Text.Line
import Mathlib.Data.List.DropRight

namespace Vitae.Text

/-! ## Trimmed texts -/

@[simp] theorem trim_trim (s : List Char) : trim (trim s) = trim s :=
  trim_of_solid (solid_trim s)

@[simp] theorem allBlank_trim (s : List Char) : allBlank (trim s) = allBlank s := by
  rw [Bool.eq_iff_iff, ← trim_eq_nil_iff, trim_trim, trim_eq_nil_iff]

theorem trimEnd_cons (c : Char) (s : List Char) :
    trimEnd (c :: s) = if (trimEnd s).isEmpty && isBlank c then [] else c :: trimEnd s := by
  by_cases front : s.reverse.dropWhile isBlank = []
  · cases blank : isBlank c <;> simp [trimEnd, List.dropWhile_append, front, blank]
  · simp [trimEnd, List.dropWhile_append, front]

theorem trimEnd_concat (s : List Char) (c : Char) :
    trimEnd (s ++ [c]) = if isBlank c then trimEnd s else s ++ [c] :=
  List.rdropWhile_concat isBlank s c

theorem trimEnd_trimEnd (s : List Char) : trimEnd (trimEnd s) = trimEnd s :=
  List.rdropWhile_idempotent isBlank s

theorem trim_eq (s : List Char) : trim s = trimStart (trimEnd s) := by
  induction s with
  | nil => rfl
  | cons c s ih =>
    rw [trimEnd_cons]
    cases blank : isBlank c with
    | true =>
      have skip : trim (c :: s) = trim s := by simp [trim, trimStart, blank]
      rw [skip, ih]
      cases rest : trimEnd s with
      | nil => rfl
      | cons d t => simp [trimStart, blank]
    | false => simp [trim, trimStart, blank, trimEnd_cons]

/-! ## Blanks around a text -/

theorem trimStart_blank_append {b : List Char} (blank : allBlank b = true) (s : List Char) :
    trimStart (b ++ s) = trimStart s :=
  List.dropWhile_append_of_pos (List.all_eq_true.mp blank)

theorem trimEnd_append_blank {b : List Char} (blank : allBlank b = true) (s : List Char) :
    trimEnd (s ++ b) = trimEnd s := by
  rw [trimEnd, List.reverse_append, List.dropWhile_append_of_pos, ← trimEnd]
  exact fun c mem => List.all_eq_true.mp blank c (List.mem_reverse.mp mem)

theorem trim_of_blank_around {a b : List Char} (front : allBlank a = true) (behind : allBlank b = true)
    (s : List Char) : trim (a ++ s ++ b) = trim s := by
  rw [trim_eq, trimEnd_append_blank behind, ← trim_eq, trim, trimStart_blank_append front, ← trim]

theorem exists_blank_around (s : List Char) :
    ∃ a b, s = a ++ trim s ++ b ∧ allBlank a = true ∧ allBlank b = true := by
  refine ⟨s.takeWhile isBlank, ((trimStart s).reverse.takeWhile isBlank).reverse, ?_,
    List.all_takeWhile, ?_⟩
  · rw [List.append_assoc, trim, trimEnd, ← List.reverse_append, List.takeWhile_append_dropWhile,
      List.reverse_reverse, trimStart, List.takeWhile_append_dropWhile]
  · rw [allBlank, List.all_reverse]
    exact List.all_takeWhile

theorem exists_trimStart (s : List Char) : ∃ blanks, s = blanks ++ trimStart s ∧ allBlank blanks = true ∧
    ∀ d ∈ (trimStart s).head?, isBlank d = false :=
  ⟨s.takeWhile isBlank, List.takeWhile_append_dropWhile.symm, List.all_takeWhile, isBlank_head_dropWhile⟩

theorem eq_nil_of_endsVisible {s blanks : List Char} (h : EndsVisible (s ++ blanks))
    (blank : allBlank blanks = true) : blanks = [] := by
  cases blanks using List.reverseRecOn with
  | nil => rfl
  | append_singleton blanks d =>
    have visible := h d (by simp)
    rw [List.all_eq_true.mp blank d (by simp)] at visible
    cases visible

theorem trim_filter_trim (p : Char → Bool) (s : List Char) :
    trim ((trim s).filter p) = trim (s.filter p) := by
  obtain ⟨a, b, whole, front, behind⟩ := exists_blank_around s
  have blank {t : List Char} (h : allBlank t = true) : allBlank (t.filter p) = true :=
    List.all_eq_true.mpr fun c mem => List.all_eq_true.mp h c (List.mem_of_mem_filter mem)
  conv_rhs => rw [whole, List.filter_append, List.filter_append]
  rw [trim_of_blank_around (blank front) (blank behind)]

/-! ## Lines -/

/-- One line with something on it and without blanks around it. -/
structure IsTrimmedLine (line : List Char) : Prop where
  present : line ≠ []
  solid : Solid line
  whole : '\n' ∉ line

theorem isTrimmedLine_of_mem {s line : List Char} (mem : line ∈ (trimmedLines s).filter (!·.isEmpty)) :
    IsTrimmedLine line := by
  obtain ⟨trimmed, present⟩ := List.mem_filter.mp mem
  obtain ⟨l, memLine, rfl⟩ := List.mem_map.mp trimmed
  exact ⟨by simpa using present, solid_trim l, fun feed => not_mem_of_mem_lines memLine (mem_of_mem_trim feed)⟩

def endedLines (s : List Char) : List (List Char) :=
  (lines s).map trimEnd

def widen (c : Char) : List (List Char) → List (List Char)
  | [] => [trimEnd [c]]
  | l :: ls => trimEnd (c :: l) :: ls

theorem trimmedLines_eq (s : List Char) : trimmedLines s = (endedLines s).map trimStart := by
  rw [trimmedLines, endedLines, List.map_map]
  exact List.map_congr_left fun l _ => trim_eq l

theorem endedLines_lineFeed (s : List Char) : endedLines ('\n' :: s) = [] :: endedLines s :=
  rfl

theorem endedLines_cons {c : Char} (ne : c ≠ '\n') (s : List Char) :
    endedLines (c :: s) = widen c (endedLines s) := by
  rw [endedLines, lines, if_neg ne, endedLines]
  cases lines s with
  | nil => rfl
  | cons l ls =>
    simp only [List.map_cons, widen, trimEnd_cons, trimEnd_trimEnd]

theorem endedLines_concat {c : Char} (blank : isBlank c = true) (s : List Char) :
    endedLines (s ++ [c]) = endedLines s ∨ endedLines (s ++ [c]) = endedLines s ++ [[]] := by
  induction s with
  | nil =>
    right
    by_cases feed : c = '\n'
    · subst feed
      rfl
    · rw [List.nil_append, endedLines_cons feed]
      simp [endedLines, lines, widen, trimEnd_cons, blank]
  | cons d s ih =>
    rw [List.cons_append]
    by_cases feed : d = '\n'
    · subst feed
      rw [endedLines_lineFeed, endedLines_lineFeed]
      exact ih.imp (congrArg _) (congrArg _)
    · rw [endedLines_cons feed, endedLines_cons feed]
      obtain same | more := ih
      · exact .inl (congrArg _ same)
      · rw [more]
        cases endedLines s with
        | nil => exact .inl rfl
        | cons l ls => exact .inr rfl

theorem trimmedLines_concat {c : Char} (blank : isBlank c = true) (s : List Char) :
    trimmedLines (s ++ [c]) = trimmedLines s ∨ trimmedLines (s ++ [c]) = trimmedLines s ++ [[]] := by
  rw [trimmedLines_eq, trimmedLines_eq]
  obtain same | more := endedLines_concat blank s
  · exact .inl (congrArg _ same)
  · rw [more, List.map_append]
    exact .inr rfl

theorem trimmedLines_cons {c : Char} (blank : isBlank c = true) (s : List Char) :
    trimmedLines (c :: s) = trimmedLines s ∨ trimmedLines (c :: s) = [] :: trimmedLines s := by
  by_cases feed : c = '\n'
  · subst feed
    exact .inr rfl
  · rw [trimmedLines, trimmedLines, lines, if_neg feed]
    cases lines s with
    | nil => exact .inr (by simp [trim, trimStart, blank])
    | cons l ls => exact .inl (by simp [trim, trimStart, blank])

theorem trimmedLines_trim {α : Type} {f : List (List Char) → α} (front : ∀ ls, f ([] :: ls) = f ls)
    (behind : ∀ ls, f (ls ++ [[]]) = f ls) (s : List Char) :
    f (trimmedLines (trim s)) = f (trimmedLines s) := by
  -- Taken off one by one, a blank at an end changes the lines by an empty one at most.
  have ended (s : List Char) : f (trimmedLines (trimEnd s)) = f (trimmedLines s) := by
    induction s using List.reverseRecOn with
    | nil => rfl
    | append_singleton s c ih =>
      rw [trimEnd_concat]
      split
      · case isTrue blank =>
        obtain same | more := trimmedLines_concat blank s
        · rw [ih, same]
        · rw [ih, more, behind]
      · rfl
  have started (s : List Char) : f (trimmedLines (trimStart s)) = f (trimmedLines s) := by
    induction s with
    | nil => rfl
    | cons c s ih =>
      cases blank : isBlank c with
      | true =>
        have skip : trimStart (c :: s) = trimStart s := by simp [trimStart, blank]
        obtain same | more := trimmedLines_cons blank s
        · rw [skip, ih, same]
        · rw [skip, ih, more, front]
      | false =>
        have keep : trimStart (c :: s) = c :: s := by simp [trimStart, blank]
        rw [keep]
  rw [trim, ended, started]

end Vitae.Text
