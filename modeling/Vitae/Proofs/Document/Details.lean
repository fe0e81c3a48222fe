import Vitae.Document.Basic
import Mathlib.Data.List.DropRight

/-!
# Details in their edited form

The details of a position held are edited as one text with a line for each. What is read from a text is free of
line feeds and has no carriage return at its end (`line_of_mem_withDetailsText`), and such details come back as
they were (`withDetailsText_detailsText_iff`). The empty text has no line, so that a single empty detail is the
one exception. The other way round a text loses nothing but the carriage returns at the ends of its lines
(`detailsText_withDetailsText`).
-/

namespace Vitae

open Text

namespace Text

theorem getLast?_dropReturns (s : List Char) : (dropReturns s).getLast? ≠ some '\r' := by
  intro last
  obtain ⟨ne, same⟩ := List.mem_getLast?_eq_getLast last
  exact List.rdropWhile_last_not (· == '\r') s ne (beq_iff_eq.mpr same.symm)

theorem dropReturns_of_getLast? {s : List Char} (h : s.getLast? ≠ some '\r') : dropReturns s = s := by
  refine List.rdropWhile_eq_self_iff.mpr fun ne same => h ?_
  rw [List.getLast?_eq_some_getLast ne, beq_iff_eq.mp same]

theorem mem_of_mem_dropReturns {s : List Char} {c : Char} (h : c ∈ dropReturns s) : c ∈ s :=
  (List.rdropWhile_prefix (· == '\r') s).subset h

/-! ## Carriage returns at the ends of lines -/

def reachesLineEnd (s : List Char) : Bool :=
  (s.dropWhile (· == '\r')).head?.all (· == '\n')

/-- The text without the runs of carriage returns right before a line feed or at its end: a carriage return
goes where only others stand between it and there. -/
def dropLineReturns : List Char → List Char
  | [] => []
  | c :: s => if c == '\r' && reachesLineEnd s then dropLineReturns s else c :: dropLineReturns s

theorem dropReturns_cons (c : Char) (s : List Char) :
    dropReturns (c :: s) = if c == '\r' && s.all (· == '\r') then [] else c :: dropReturns s := by
  rw [dropReturns, dropReturns, List.reverse_cons, List.dropWhile_append]
  cases rest : s.reverse.dropWhile (· == '\r') with
  | nil =>
    have returns : s.all (· == '\r') = true := by
      simpa [List.dropWhile_eq_nil_iff] using rest
    by_cases same : c = '\r' <;> simp [returns, same]
  | cons d t =>
    have other : s.all (· == '\r') = false := by
      rw [← Bool.not_eq_true]
      intro returns
      have none : s.reverse.dropWhile (· == '\r') = [] :=
        List.dropWhile_eq_nil_iff.mpr (by simpa using returns)
      rw [none] at rest
      cases rest
    simp [other]

theorem reachesLineEnd_append {l t : List Char} (line : '\n' ∉ l) (ended : t.head?.all (· == '\n') = true) :
    reachesLineEnd (l ++ t) = l.all (· == '\r') := by
  induction l with
  | nil =>
    cases t with
    | nil => rfl
    | cons c t =>
      obtain rfl : c = '\n' := by simpa using ended
      rfl
  | cons c l ih =>
    simp only [List.mem_cons, not_or] at line
    by_cases same : c = '\r'
    · subst same
      exact ih line.2
    · simp [reachesLineEnd, same, beq_false_of_ne (Ne.symm line.1)]

theorem dropLineReturns_append {l t : List Char} (line : '\n' ∉ l) (ended : t.head?.all (· == '\n') = true) :
    dropLineReturns (l ++ t) = dropReturns l ++ dropLineReturns t := by
  induction l with
  | nil => rfl
  | cons c l ih =>
    simp only [List.mem_cons, not_or] at line
    rw [List.cons_append, dropLineReturns, reachesLineEnd_append line.2 ended, dropReturns_cons, ih line.2]
    split
    · case isTrue returns =>
      rw [Bool.and_eq_true] at returns
      have none : dropReturns l = [] := by
        simpa [dropReturns, List.dropWhile_eq_nil_iff] using returns.2
      rw [none]
    · rfl

theorem joinLines_map_dropReturns (s : List Char) :
    joinLines ((splitLines s).map dropReturns) = dropLineReturns s := by
  have lines : ∀ l ∈ splitLines s, '\n' ∉ l := fun l mem => not_mem_of_mem_split mem
  conv_rhs => rw [← joinLines_splitLines s]
  -- from here on any lines will do, so that the induction goes over the lines
  generalize splitLines s = ls at lines
  induction ls with
  | nil => rfl
  | cons l ls ih =>
    rw [List.forall_mem_cons] at lines
    cases ls with
    | nil =>
      have last := dropLineReturns_append (t := []) lines.1 rfl
      simpa [joinLines, joinWith, dropLineReturns] using last.symm
    | cons l' ls =>
      have front := dropLineReturns_append (t := '\n' :: joinLines (l' :: ls)) lines.1 rfl
      have feed : dropLineReturns ('\n' :: joinLines (l' :: ls)) =
          '\n' :: dropLineReturns (joinLines (l' :: ls)) := rfl
      rw [feed, ← ih lines.2] at front
      simpa [joinLines, joinWith, List.intercalate_cons_cons] using front.symm

theorem dropLineReturns_of_not_mem {s : List Char} (h : '\r' ∉ s) : dropLineReturns s = s := by
  induction s with
  | nil => rfl
  | cons c s ih =>
    simp only [List.mem_cons, not_or] at h
    rw [dropLineReturns, ih h.2]
    simp [Ne.symm h.1]

end Text

namespace Experience

def IsLine (detail : String) : Prop :=
  '\n' ∉ detail.toList ∧ detail.toList.getLast? ≠ some '\r'

theorem withDetailsText_empty (e : Experience) : e.withDetailsText "" = { e with details := [] } :=
  rfl

theorem withDetailsText_of_ne_empty (e : Experience) {text : String} (ne : text ≠ "") :
    e.withDetailsText text =
      { e with details := (splitLines text.toList).map fun l => String.ofList (dropReturns l) } := by
  have present : text.toList.isEmpty = false := by simpa using ne
  rw [withDetailsText, present]
  rfl

theorem line_of_mem_withDetailsText (e : Experience) (text : String) :
    ∀ d ∈ (e.withDetailsText text).details, IsLine d := by
  by_cases empty : text = ""
  · subst empty
    exact List.forall_mem_nil _
  · rw [withDetailsText_of_ne_empty e empty, List.forall_mem_map]
    intro l mem
    rw [IsLine, String.toList_ofList]
    exact ⟨fun feed => not_mem_of_mem_split mem (mem_of_mem_dropReturns feed), getLast?_dropReturns l⟩

theorem detailsText_eq_empty_iff {e : Experience} : e.detailsText = "" ↔ e.details = [] ∨ e.details = [""] := by
  rw [← String.toList_eq_nil_iff, detailsText, String.toList_ofList, joinLines, joinWith]
  rcases e.details with _ | ⟨d, _ | ⟨d', ds⟩⟩ <;> simp

theorem splitLines_detailsText {e : Experience} (ne : e.details ≠ []) (lines : ∀ d ∈ e.details, IsLine d) :
    (splitLines e.detailsText.toList).map (fun l => String.ofList (dropReturns l)) = e.details := by
  have whole : ∀ l ∈ e.details.map String.toList, '\n' ∉ l :=
    List.forall_mem_map.mpr fun d mem => (lines d mem).1
  have cut : splitLines e.detailsText.toList = e.details.map String.toList := by
    rw [detailsText, String.toList_ofList]
    exact split_joinWith whole (by simpa using ne)
  have kept : ∀ d ∈ e.details, String.ofList (dropReturns d.toList) = d := by
    intro d mem
    rw [dropReturns_of_getLast? (lines d mem).2, String.ofList_toList]
  rw [cut, List.map_map]
  exact (List.map_congr_left kept).trans (List.map_id _)

/-- Details survive their edited form if and only if each of them is a line and they are not one empty
line. -/
theorem withDetailsText_detailsText_iff (e : Experience) :
    e.withDetailsText e.detailsText = e ↔ e.details ≠ [""] ∧ ∀ d ∈ e.details, IsLine d := by
  constructor
  · intro same
    refine ⟨fun lone => ?_, ?_⟩
    · have lost := withDetailsText_empty e
      rw [← detailsText_eq_empty_iff.mpr (.inr lone), same] at lost
      rw [lost] at lone
      cases lone
    · have lines := line_of_mem_withDetailsText e e.detailsText
      rw [same] at lines
      exact lines
  · rintro ⟨notLone, lines⟩
    by_cases none : e.details = []
    · rw [detailsText_eq_empty_iff.mpr (.inl none), withDetailsText_empty, ← none]
    · have present : e.detailsText ≠ "" := fun empty =>
        (detailsText_eq_empty_iff.mp empty).elim none notLone
      rw [withDetailsText_of_ne_empty e present, splitLines_detailsText none lines]

theorem withDetailsText_detailsText_loneEmpty :
    let e : Experience := { details := [""] }
    (∀ d ∈ e.details, '\n' ∉ d.toList ∧ '\r' ∉ d.toList) ∧ (e.withDetailsText e.detailsText).details = [] ∧
      (e.withDetailsText e.detailsText).details ≠ e.details := by
  decide

/-! ## Texts read and written again -/

theorem detailsText_withDetailsText_eq (e : Experience) (text : String) :
    (e.withDetailsText text).detailsText = String.ofList (dropLineReturns text.toList) := by
  by_cases empty : text = ""
  · subst empty
    rfl
  · rw [withDetailsText_of_ne_empty e empty, detailsText, List.map_map, ← joinLines_map_dropReturns]
    congr 2
    exact List.map_congr_left fun l _ => String.toList_ofList

/-- A text that is edited comes back without the carriage returns at the ends of its lines, and each of its
lines is a detail. The empty text has none. -/
theorem detailsText_withDetailsText (e : Experience) (text : String) :
    (e.withDetailsText text).detailsText = String.ofList (dropLineReturns text.toList) ∧
      ('\r' ∉ text.toList → (e.withDetailsText text).detailsText = text) ∧
      (e.withDetailsText text).details.length = if text = "" then 0 else text.toList.count '\n' + 1 := by
  have edited := detailsText_withDetailsText_eq e text
  refine ⟨edited, fun free => ?_, ?_⟩
  · rw [edited, dropLineReturns_of_not_mem free, String.ofList_toList]
  · split
    · case isTrue empty =>
      subst empty
      rfl
    · case isFalse present =>
      rw [withDetailsText_of_ne_empty e present, List.length_map, splitLines, length_split]

theorem detailsText_withDetailsText_emptyLines :
    let e : Experience := {}
    let text := "a\n\nb\n"
    '\r' ∉ text.toList ∧ (e.withDetailsText text).detailsText = text ∧
      (e.withDetailsText text).details.length = 4 := by
  intro e text
  have free : '\r' ∉ text.toList := by decide
  have ⟨_, same, count⟩ := detailsText_withDetailsText e text
  exact ⟨free, same free, count.trans (by decide)⟩

example : dropLineReturns "\ra\r\r\nb\rc\r".toList = "\ra\nb\rc".toList := by decide

end Experience

end Vitae
