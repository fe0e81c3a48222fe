import Vitae.Proofs.Document.Moving
import Vitae.Proofs.Document.Slot
import Mathlib.Data.List.TakeDrop

/-!
# Changes of the lists of entries

The entries of a document are kept in three lists. `Entries` are plain lists, which a change takes apart at an
index and puts together again; whatever is done to a document, its lists are what that makes of them, with the
same answers (`edited_on_lists`).

A vector that is told to take out or to put in at an index which it has not breaks the program off.
`EntryEdit.perform` has a result only where that does not happen, and it always has one (`perform_eq`).
-/

namespace Vitae

open Edit (Reply)

variable {α : Type} {l : List α} {i j : Nat}

inductive EntryEdit where
  | experience (change : ListEdit Experience)
  | education (change : ListEdit Education)
  | customSections (change : ListEdit CustomSection)
  | moveCustomSection (i j : Nat)
  deriving Repr

def EntryEdit.edit : EntryEdit → Edit
  | .experience change => .experience change
  | .education change => .education change
  | .customSections change => .customSections change
  | .moveCustomSection i j => .moveCustomSection i j

/-! ## Plain lists -/

def without (l : List α) (i : Nat) : List α :=
  l.take i ++ l.drop (i + 1)

def putBefore (l : List α) (i : Nat) (a : α) : List α :=
  l.take i ++ a :: l.drop i

def replaceOnList (l : List α) (i : Nat) (a : α) : Bool × List α :=
  if i < l.length then (true, l.take i ++ a :: l.drop (i + 1)) else (false, l)

def removeOnList (l : List α) (i : Nat) : Option α × List α :=
  if i < l.length then (l[i]?, without l i) else (none, l)

def moveOnList (l : List α) (i j : Nat) : Bool × List α :=
  if h : i < l.length ∧ j < l.length then (true, putBefore (without l i) j (l.get ⟨i, h.1⟩)) else (false, l)

def ListEdit.onList (removed : Option α → Reply) (l : List α) : ListEdit α → Reply × List α
  | .add a => (.nothing, l ++ [a])
  | .update i a => (replaceOnList l i a).map .made id
  | .remove i => (removeOnList l i).map removed id

structure Entries where
  experience : List Experience
  education : List Education
  customSections : List CustomSection
  deriving DecidableEq, Repr

def Entries.change (E : Entries) : EntryEdit → Reply × Entries
  | .experience c => (c.onList .experience E.experience).map id fun l => { E with experience := l }
  | .education c => (c.onList .education E.education).map id fun l => { E with education := l }
  | .customSections c =>
    (c.onList .customSection E.customSections).map id fun l => { E with customSections := l }
  | .moveCustomSection i j =>
    (moveOnList E.customSections i j).map .made fun l => { E with customSections := l }

def Document.entries (d : Document) : Entries :=
  ⟨d.experience, d.education, d.customSections⟩

def Document.withEntries (d : Document) (E : Entries) : Document :=
  { d with experience := E.experience, education := E.education, customSections := E.customSections }

theorem insertIdx_eq_putBefore {a : α} (room : i ≤ l.length) : l.insertIdx i a = putBefore l i a := by
  induction l generalizing i with
  | nil =>
    obtain rfl := Nat.le_zero.mp room
    rfl
  | cons b l ih =>
    cases i with
    | zero => rfl
    | succ i =>
      rw [List.insertIdx_succ_cons, ih (Nat.le_of_succ_le_succ room)]
      rfl

theorem replaceAt_eq_replaceOnList (l : List α) (i : Nat) (a : α) :
    replaceAt l i a = replaceOnList l i a := by
  unfold replaceAt replaceOnList
  split
  · case isTrue inside => rw [List.set_eq_take_cons_drop a inside]
  · rfl

theorem removeAt_eq_removeOnList (l : List α) (i : Nat) : removeAt l i = removeOnList l i := by
  unfold removeAt removeOnList
  by_cases inside : i < l.length
  · rw [if_pos inside, List.getElem?_eq_getElem inside, List.eraseIdx_eq_take_drop_succ]
    rfl
  · rw [if_neg inside, List.getElem?_eq_none_iff.mpr (Nat.le_of_not_lt inside)]

theorem moveTo_eq_moveOnList (l : List α) (i j : Nat) : moveTo l i j = moveOnList l i j := by
  unfold moveOnList
  split
  · case isTrue inside =>
    have others := List.length_eraseIdx_of_lt inside.1
    have room : j ≤ (l.eraseIdx i).length := by omega
    rw [moveTo_of_lt inside.1 inside.2, insertIdx_eq_putBefore room, List.eraseIdx_eq_take_drop_succ]
    rfl
  · case isFalse outside => exact moveTo_of_not_lt outside

theorem act_eq_onList (removed : Option α → Reply) (l : List α) (change : ListEdit α) :
    change.act removed l = change.onList removed l := by
  cases change with
  | add a => rfl
  | update i a => rw [ListEdit.act, ListEdit.onList, replaceAt_eq_replaceOnList]
  | remove i => rw [ListEdit.act, ListEdit.onList, removeAt_eq_removeOnList]

theorem apply_eq_change (d : Document) (e : EntryEdit) :
    e.edit.apply d = (d.entries.change e).map id d.withEntries := by
  rw [Edit.apply_eq]
  cases e with
  | experience change =>
    rw [Entries.change, ← act_eq_onList]
    rfl
  | education change =>
    rw [Entries.change, ← act_eq_onList]
    rfl
  | customSections change =>
    rw [Entries.change, ← act_eq_onList]
    rfl
  | moveCustomSection i j =>
    rw [Entries.change, ← moveTo_eq_moveOnList]
    rfl

/-! ## Refusals -/

def Edit.Reply.isRefusal : Reply → Bool
  | .nothing => false
  | .made done => !done
  | .experience removed => removed.isNone
  | .education removed => removed.isNone
  | .customSection removed => removed.isNone

def ListEdit.Fits (l : List α) : ListEdit α → Prop
  | .add _ => True
  | .update i _ | .remove i => i < l.length

def EntryEdit.Fits (E : Entries) : EntryEdit → Prop
  | .experience change => change.Fits E.experience
  | .education change => change.Fits E.education
  | .customSections change => change.Fits E.customSections
  | .moveCustomSection i j => i < E.customSections.length ∧ j < E.customSections.length

theorem isRefusal_onList {removed : Option α → Reply} (tells : ∀ r, (removed r).isRefusal = r.isNone)
    (l : List α) (change : ListEdit α) :
    (change.onList removed l).1.isRefusal = true ↔ ¬change.Fits l := by
  cases change with
  | add a => simp [ListEdit.onList, Edit.Reply.isRefusal, ListEdit.Fits]
  | update i a =>
    by_cases inside : i < l.length <;>
      simp [ListEdit.onList, replaceOnList, Edit.Reply.isRefusal, ListEdit.Fits, inside]
  | remove i =>
    by_cases inside : i < l.length <;> simp [ListEdit.onList, removeOnList, tells, ListEdit.Fits, inside]

theorem onList_of_not_fits {removed : Option α → Reply} {change : ListEdit α} (outside : ¬change.Fits l) :
    (change.onList removed l).2 = l := by
  cases change with
  | add a => exact absurd trivial outside
  | update i a =>
    have behind : ¬i < l.length := outside
    rw [ListEdit.onList, replaceOnList, if_neg behind]
    rfl
  | remove i =>
    have behind : ¬i < l.length := outside
    rw [ListEdit.onList, removeOnList, if_neg behind]
    rfl

theorem isRefusal_change (E : Entries) (e : EntryEdit) :
    (E.change e).1.isRefusal = true ↔ ¬e.Fits E := by
  cases e with
  | experience change => exact isRefusal_onList (fun _ => rfl) _ change
  | education change => exact isRefusal_onList (fun _ => rfl) _ change
  | customSections change => exact isRefusal_onList (fun _ => rfl) _ change
  | moveCustomSection i j =>
    rw [Entries.change, EntryEdit.Fits, moveOnList]
    split <;> simp [Edit.Reply.isRefusal, *]

theorem change_of_not_fits {E : Entries} {e : EntryEdit} (outside : ¬e.Fits E) : (E.change e).2 = E := by
  cases e with
  | experience change =>
    have outside : ¬change.Fits E.experience := outside
    rw [Entries.change, Prod.map_snd, onList_of_not_fits outside]
  | education change =>
    have outside : ¬change.Fits E.education := outside
    rw [Entries.change, Prod.map_snd, onList_of_not_fits outside]
  | customSections change =>
    have outside : ¬change.Fits E.customSections := outside
    rw [Entries.change, Prod.map_snd, onList_of_not_fits outside]
  | moveCustomSection i j =>
    have outside : ¬(i < E.customSections.length ∧ j < E.customSections.length) := outside
    rw [Entries.change, moveOnList, dif_neg outside]
    rfl

/-! ## Faults -/

def takeOut? (l : List α) (i : Nat) : Option (α × List α) :=
  if h : i < l.length then some (l[i], l.eraseIdx i) else none

def putIn? (l : List α) (i : Nat) (a : α) : Option (List α) :=
  if i ≤ l.length then some (l.insertIdx i a) else none

def removeStep (l : List α) (i : Nat) : Option (Option α × List α) :=
  if i < l.length then do
    let (a, others) ← takeOut? l i
    return (some a, others)
  else return (none, l)

def moveStep (l : List α) (i j : Nat) : Option (Bool × List α) :=
  if l.length ≤ i ∨ l.length ≤ j then return (false, l)
  else do
    let (a, others) ← takeOut? l i
    let moved ← putIn? others j a
    return (true, moved)

def ListEdit.perform (removed : Option α → Reply) (l : List α) : ListEdit α → Option (Reply × List α)
  | .add a => return (.nothing, l ++ [a])
  | .update i a => return (replaceAt l i a).map .made id
  | .remove i => (removeStep l i).map (Prod.map removed id)

def EntryEdit.perform (d : Document) : EntryEdit → Option (Reply × Document)
  | .experience change =>
    (change.perform .experience d.experience).map (Prod.map id fun l => { d with experience := l })
  | .education change =>
    (change.perform .education d.education).map (Prod.map id fun l => { d with education := l })
  | .customSections change =>
    (change.perform .customSection d.customSections).map (Prod.map id fun l => { d with customSections := l })
  | .moveCustomSection i j =>
    (moveStep d.customSections i j).map (Prod.map .made fun l => { d with customSections := l })

theorem removeStep_eq (l : List α) (i : Nat) : removeStep l i = some (removeAt l i) := by
  unfold removeStep removeAt
  by_cases inside : i < l.length
  · rw [if_pos inside, takeOut?, dif_pos inside, List.getElem?_eq_getElem inside]
    rfl
  · rw [if_neg inside, List.getElem?_eq_none_iff.mpr (Nat.le_of_not_lt inside)]
    rfl

theorem moveStep_eq (l : List α) (i j : Nat) : moveStep l i j = some (moveTo l i j) := by
  unfold moveStep
  split
  · case isTrue behind =>
    have outside : ¬(i < l.length ∧ j < l.length) := by omega
    rw [moveTo_of_not_lt outside]
    rfl
  · case isFalse inside =>
    have source : i < l.length := by omega
    have target : j < l.length := by omega
    have others := List.length_eraseIdx_of_lt source
    have room : j ≤ (l.eraseIdx i).length := by omega
    have taken : takeOut? l i = some (l[i], l.eraseIdx i) := dif_pos source
    have put : putIn? (l.eraseIdx i) j l[i] = some ((l.eraseIdx i).insertIdx j l[i]) := if_pos room
    simp only [moveTo_of_lt source target, taken, put, Option.bind_eq_bind, Option.bind_some, pure]

theorem perform_eq_act (removed : Option α → Reply) (l : List α) (change : ListEdit α) :
    change.perform removed l = some (change.act removed l) := by
  cases change with
  | add a => rfl
  | update i a => rfl
  | remove i => rw [ListEdit.perform, removeStep_eq]; rfl

theorem perform_eq (d : Document) (e : EntryEdit) : e.perform d = some (e.edit.apply d) := by
  rw [Edit.apply_eq]
  cases e with
  | experience change => rw [EntryEdit.perform, perform_eq_act]; rfl
  | education change => rw [EntryEdit.perform, perform_eq_act]; rfl
  | customSections change => rw [EntryEdit.perform, perform_eq_act]; rfl
  | moveCustomSection i j => rw [EntryEdit.perform, moveStep_eq]; rfl

/-! ## Runs -/

def applyAll (es : List EntryEdit) : StateM Document (List Reply) :=
  es.mapM fun e d => e.edit.apply d

def performAll (es : List EntryEdit) : StateT Document Option (List Reply) :=
  es.mapM fun e d => e.perform d

def changeAll (es : List EntryEdit) : StateM Entries (List Reply) :=
  es.mapM fun e E => E.change e

theorem performAll_cons (d : Document) (e : EntryEdit) (es : List EntryEdit) :
    performAll (e :: es) d =
      (e.perform d).bind fun p => (performAll es p.2).bind fun q => some (p.1 :: q.1, q.2) := by
  rw [performAll, List.mapM_cons]
  rfl

theorem applyAll_cons (d : Document) (e : EntryEdit) (es : List EntryEdit) :
    applyAll (e :: es) d = (applyAll es (e.edit.apply d).2).map ((e.edit.apply d).1 :: ·) id := by
  rw [applyAll, List.mapM_cons]
  rfl

theorem changeAll_cons (E : Entries) (e : EntryEdit) (es : List EntryEdit) :
    changeAll (e :: es) E = (changeAll es (E.change e).2).map ((E.change e).1 :: ·) id := by
  rw [changeAll, List.mapM_cons]
  rfl

theorem performAll_eq (d : Document) (es : List EntryEdit) : performAll es d = some (applyAll es d) := by
  induction es generalizing d with
  | nil => rfl
  | cons e es ih =>
    rw [performAll_cons, perform_eq, Option.bind_some, ih, Option.bind_some, applyAll_cons]
    rfl

theorem applyAll_eq_changeAll (d : Document) (es : List EntryEdit) :
    applyAll es d = (changeAll es d.entries).map id d.withEntries := by
  induction es generalizing d with
  | nil => rfl
  | cons e es ih =>
    rw [applyAll_cons, changeAll_cons, apply_eq_change, ih]
    rfl

/-- However the lists of entries are changed, nothing is broken off, and the lists and the answers are those of
plain lists. A change whose index is behind the end is refused and leaves the document as it is, and none
changes more than its own list. -/
theorem edited_on_lists :
    (∀ (d : Document) (es : List EntryEdit),
      performAll es d = some (applyAll es d) ∧
        (applyAll es d).1 = (changeAll es d.entries).1 ∧
        (applyAll es d).2 = d.withEntries (changeAll es d.entries).2) ∧
    ∀ (d : Document) (e : EntryEdit),
      ((e.edit.apply d).1.isRefusal = true ↔ ¬e.Fits d.entries) ∧
      (¬e.Fits d.entries → (e.edit.apply d).2 = d) ∧
      (e.edit.apply d).2 = d.write e.edit.slot ((e.edit.apply d).2.read e.edit.slot) := by
  refine ⟨fun d es => ⟨performAll_eq d es, ?_, ?_⟩, fun d e => ⟨?_, fun outside => ?_, ?_⟩⟩
  · rw [applyAll_eq_changeAll]
    rfl
  · rw [applyAll_eq_changeAll]
    rfl
  · rw [apply_eq_change]
    exact isRefusal_change d.entries e
  · rw [apply_eq_change, Prod.map_snd, change_of_not_fits outside]
    rfl
  · rw [Edit.apply_eq, Prod.map_snd, Document.read_write_self]

theorem edited_on_lists_shifted :
    let add (position : String) : EntryEdit := .experience (.add { position })
    let d : Document := (applyAll [add "a", add "b", add "c", .experience (.remove 0)] {}).2
    performAll [add "a", add "b", add "c", .experience (.remove 0)] {} =
        some ([.nothing, .nothing, .nothing, .experience (some { position := "a" })], d) ∧
      d.experience.map (·.position) = ["b", "c"] ∧
      (d.updateExperience 2 {}).2 = d := by
  intro add d
  obtain ⟨runs, steps⟩ := edited_on_lists
  obtain ⟨whole, answers, left⟩ := runs {} [add "a", add "b", add "c", .experience (.remove 0)]
  have lists : d.entries = ⟨[{ position := "b" }, { position := "c" }], [], []⟩ :=
    congrArg Document.entries left
  obtain ⟨-, kept, -⟩ := steps d (.experience (.update 2 {}))
  refine ⟨whole.trans (congrArg some (Prod.ext answers rfl)), ?_, kept ?_⟩
  · rw [show d.experience = d.entries.experience from rfl, lists]
    rfl
  · intro fits
    have fits : 2 < d.entries.experience.length := fits
    rw [lists] at fits
    exact absurd fits (by decide)

end Vitae
