import Vitae.Document.Edit
import Mathlib.Data.List.InsertIdx
import Mathlib.Data.List.Perm.Basic

namespace Vitae

variable {α : Type} {l m : List α} {i j : Nat}

/-- The second list is the first with the element at `i` brought to `j`. -/
structure Moved (l : List α) (i : Nat) (m : List α) (j : Nat) : Prop where
  source : i < l.length
  target : j < m.length
  element : m[j]? = l[i]?
  others : m.eraseIdx j = l.eraseIdx i

namespace Moved

theorem symm (moved : Moved l i m j) : Moved m j l i :=
  ⟨moved.target, moved.source, moved.element.symm, moved.others.symm⟩

theorem length_eq (moved : Moved l i m j) : m.length = l.length := by
  have others := congrArg List.length moved.others
  have source := moved.source
  have target := moved.target
  rw [List.length_eraseIdx_of_lt source, List.length_eraseIdx_of_lt target] at others
  omega

theorem getElem_eq (moved : Moved l i m j) (source : i < l.length) (target : j < m.length) :
    m[j] = l[i] := by
  have element := moved.element
  rwa [List.getElem?_eq_getElem source, List.getElem?_eq_getElem target, Option.some_inj] at element

theorem perm (moved : Moved l i m j) : m.Perm l := by
  have front := List.getElem_cons_eraseIdx_perm moved.target
  rw [moved.getElem_eq moved.source, moved.others] at front
  exact front.symm.trans (List.getElem_cons_eraseIdx_perm moved.source)

theorem eq_insertIdx (moved : Moved l i m j) (source : i < l.length) :
    m = (l.eraseIdx i).insertIdx j l[i] := by
  rw [← moved.getElem_eq source moved.target, ← moved.others, List.insertIdx_eraseIdx_getElem]

end Moved

theorem moved_insertIdx (source : i < l.length) (target : j < l.length) :
    Moved l i ((l.eraseIdx i).insertIdx j l[i]) j := by
  have others := List.length_eraseIdx_of_lt source
  have room : j ≤ (l.eraseIdx i).length := by omega
  have length := List.length_insertIdx_of_le_length room l[i]
  refine ⟨source, by omega, ?_, List.eraseIdx_insertIdx_self l[i]⟩
  rw [List.getElem?_insertIdx_self, if_pos room, List.getElem?_eq_getElem source]

/-! ## Moves -/

theorem moveTo_of_lt (source : i < l.length) (target : j < l.length) :
    moveTo l i j = (true, (l.eraseIdx i).insertIdx j l[i]) := by
  rw [moveTo, List.getElem?_eq_getElem source]
  dsimp only
  rw [if_pos target]

theorem moveTo_of_not_lt (outside : ¬(i < l.length ∧ j < l.length)) : moveTo l i j = (false, l) := by
  unfold moveTo
  split
  · case h_1 a found =>
    obtain ⟨source, -⟩ := List.getElem?_eq_some_iff.mp found
    rw [if_neg fun target => outside ⟨source, target⟩]
  · rfl

theorem fst_moveTo (l : List α) (i j : Nat) :
    (moveTo l i j).1 = true ↔ i < l.length ∧ j < l.length := by
  by_cases inside : i < l.length ∧ j < l.length
  · simp [moveTo_of_lt inside.1 inside.2, inside]
  · simp [moveTo_of_not_lt inside, inside]

theorem moveTo_eq_true_iff : moveTo l i j = (true, m) ↔ Moved l i m j := by
  constructor
  · intro h
    obtain ⟨source, target⟩ := (fst_moveTo l i j).mp (congrArg Prod.fst h)
    rw [moveTo_of_lt source target] at h
    cases h
    exact moved_insertIdx source target
  · intro moved
    have target : j < l.length := moved.length_eq ▸ moved.target
    rw [moveTo_of_lt moved.source target, ← moved.eq_insertIdx moved.source]

namespace Document

theorem moveCustomSection_eq_true_iff {d e : Document} : d.moveCustomSection i j = (true, e) ↔
    Moved d.customSections i e.customSections j ∧ e = { d with customSections := e.customSections } := by
  rw [← moveTo_eq_true_iff]
  unfold moveCustomSection
  obtain ⟨done, l⟩ := moveTo d.customSections i j
  constructor
  · intro h
    cases h
    exact ⟨rfl, rfl⟩
  · rintro ⟨moved, same⟩
    cases moved
    rw [same]

/-- A custom section is moved if and only if both indexes are those of sections. Then it stands at the second
index, the others are as they were in their order, and the move back gives the document again. -/
theorem moveCustomSection_reorders (d : Document) (i j : Nat) :
    ((d.moveCustomSection i j).1 = true ↔ i < d.customSections.length ∧ j < d.customSections.length) ∧
    ((d.moveCustomSection i j).1 = false → (d.moveCustomSection i j).2 = d) ∧
    ∀ e, d.moveCustomSection i j = (true, e) →
      e.customSections[j]? = d.customSections[i]? ∧
      e.customSections.eraseIdx j = d.customSections.eraseIdx i ∧
      e.customSections.Perm d.customSections ∧
      e = { d with customSections := e.customSections } ∧
      e.moveCustomSection j i = (true, d) := by
  refine ⟨fst_moveTo d.customSections i j, ?_, ?_⟩
  · intro refused
    have outside : ¬(i < d.customSections.length ∧ j < d.customSections.length) := by
      rw [← fst_moveTo, Bool.not_eq_true]
      exact refused
    rw [moveCustomSection, moveTo_of_not_lt outside]
  · intro e done
    obtain ⟨moved, same⟩ := moveCustomSection_eq_true_iff.mp done
    have back : d = { e with customSections := d.customSections } := by rw [same]
    exact ⟨moved.element, moved.others, moved.perm, same,
      moveCustomSection_eq_true_iff.mpr ⟨moved.symm, back⟩⟩

def threeSections : Document where
  customSections := [{ heading := "A" }, { heading := "B" }, { heading := "C" }]

theorem moveCustomSection_reorders_lastFirst :
    ∃ e, threeSections.moveCustomSection 2 0 = (true, e) ∧
      e.customSections.map (·.heading) = ["C", "A", "B"] ∧
      e.customSections.Perm threeSections.customSections ∧
      e.moveCustomSection 0 2 = (true, threeSections) ∧
      (threeSections.moveCustomSection 3 0).1 = false ∧
      (threeSections.moveCustomSection 3 0).2 = threeSections := by
  obtain ⟨-, -, moved⟩ := moveCustomSection_reorders threeSections 2 0
  obtain ⟨-, refused, -⟩ := moveCustomSection_reorders threeSections 3 0
  obtain ⟨-, -, perm, -, back⟩ := moved _ rfl
  exact ⟨_, rfl, rfl, perm, back, rfl, refused rfl⟩

end Document

end Vitae
