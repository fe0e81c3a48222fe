import Vitae.FieldTypes
import Mathlib.Data.Finset.Basic

namespace Vitae.FieldTypes

variable {s u : FieldTypes} {S : Finset FieldType} {t : FieldType}

inductive Step where
  | insert (t : FieldType)
  | toggle (t : FieldType)
  | only (t : FieldType)
  deriving DecidableEq, Repr

def Step.apply (s : FieldTypes) : Step → FieldTypes
  | .insert t => s.insert t
  | .toggle t => s.toggle t
  | .only t => .only t

def after (s : FieldTypes) (steps : List Step) : FieldTypes :=
  steps.foldl Step.apply s

/-! ## Plain sets -/

def orParagraph (S : Finset FieldType) : Finset FieldType :=
  if S = ∅ then {.paragraph} else S

def flip (S : Finset FieldType) (t : FieldType) : Finset FieldType :=
  if t ∈ S then S.erase t else Insert.insert t S

def Step.change (S : Finset FieldType) : Step → Finset FieldType
  | .insert t => Insert.insert t S
  | .toggle t => orParagraph (flip S t)
  | .only t => {t}

def membersAfter (ts : List FieldType) (steps : List Step) : Finset FieldType :=
  steps.foldl Step.change (orParagraph ts.toFinset)

def Members (s : FieldTypes) (S : Finset FieldType) : Prop :=
  ∀ t, s.contains t = true ↔ t ∈ S

theorem Members.unique (hs : s.Members S) (hu : u.Members S) : s = u := by
  apply eq_of_contains
  intro t
  rw [Bool.eq_iff_iff, hs t, hu t]

theorem members_only (t : FieldType) : (only t).Members {t} := by
  intro v
  rw [contains_only, beq_iff_eq, Finset.mem_singleton, eq_comm]

theorem mem_flip {v : FieldType} : v ∈ flip S t ↔ ¬(v ∈ S ↔ t = v) := by
  unfold flip
  split <;> by_cases same : t = v <;> simp_all [eq_comm]

theorem flip_eq_empty_iff : flip S t = ∅ ↔ S = {t} := by
  rw [Finset.eq_empty_iff_forall_notMem, Finset.ext_iff]
  simp only [mem_flip, not_not, Finset.mem_singleton, eq_comm]

theorem Members.toggle (members : s.Members S) (t : FieldType) : (s.toggle t).Members (orParagraph (flip S t)) := by
  intro v
  have alone : s = only t ↔ flip S t = ∅ := by
    rw [flip_eq_empty_iff]
    constructor
    · rintro rfl
      ext v
      rw [← members v, members_only t v]
    · rintro rfl
      exact members.unique (members_only t)
  rw [contains_toggle, orParagraph]
  by_cases last : s = only t
  · rw [if_pos last, if_pos (alone.mp last), beq_iff_eq, Finset.mem_singleton]
  · rw [if_neg last, if_neg (mt alone.mpr last), mem_flip, ← members v, bne_iff_ne, ne_eq, Bool.eq_iff_iff,
      beq_iff_eq]

theorem members_apply (members : s.Members S) (step : Step) : (step.apply s).Members (step.change S) := by
  cases step with
  | insert t =>
    intro v
    rw [Step.apply, contains_insert, Step.change, Finset.mem_insert, ← members v, Bool.or_eq_true, beq_iff_eq,
      eq_comm]
  | toggle t => exact members.toggle t
  | only t => exact members_only t

theorem members_after (members : s.Members S) (steps : List Step) :
    (s.after steps).Members (steps.foldl Step.change S) := by
  induction steps generalizing s S with
  | nil => exact members
  | cons step steps ih => exact ih (members_apply members step)

theorem members_ofList (ts : List FieldType) : (ofList ts).Members (orParagraph ts.toFinset) := by
  intro v
  rw [contains_ofList, orParagraph]
  by_cases empty : ts = []
  · simp [empty]
  · simp [empty]

/-! ## Runs -/

structure Represents (s : FieldTypes) (S : Finset FieldType) : Prop where
  members : s.Members S
  nonempty : S.Nonempty
  ordered : s.toList.Sublist FieldType.all
  once : ∀ t, s.toList.count t = if t ∈ S then 1 else 0
  rebuilt : ∀ l : List FieldType, (∀ t, t ∈ l ↔ t ∈ s.toList) → ofList l = s

theorem count_all (t : FieldType) : FieldType.all.count t = 1 := by
  cases t <;> rfl

theorem Members.represents (members : s.Members S) : s.Represents S where
  members := members
  nonempty := by
    obtain ⟨t, mem⟩ := List.exists_mem_of_ne_nil s.toList s.toList_ne_nil
    exact ⟨t, (members t).mp (mem_toList.mp mem)⟩
  ordered := List.filter_sublist
  once t := by
    split
    · case isTrue mem =>
      rw [toList, List.count_filter ((members t).mpr mem), count_all]
    · case isFalse other =>
      rw [List.count_eq_zero, mem_toList, members t]
      exact other
  rebuilt l same := ofList_eq fun t => (same t).symm

/-- Whatever list a set is read from and whatever is done to it, it has the members of a plain set to which the
same is done. It always has some, lists each of them once in the order of all field types, and is given back by
every list of them. -/
theorem represents_after (ts : List FieldType) (steps : List Step) :
    ((ofList ts).after steps).Represents (membersAfter ts steps) :=
  (members_after (members_ofList ts) steps).represents

end Vitae.FieldTypes
