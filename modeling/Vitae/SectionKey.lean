import Vitae.FieldTypes

namespace Vitae

inductive SectionKey where
  | summary
  | football
  | experience
  | education
  | achievements
  | skills
  | portfolio
  | personalAttributes
  | languages
  | references
  deriving DecidableEq, Repr, Inhabited

namespace SectionKey

def all : List SectionKey :=
  [.summary, .football, .experience, .education, .achievements, .skills, .portfolio,
    .personalAttributes, .languages, .references]

def name : SectionKey → String
  | .summary => "summary"
  | .football => "football"
  | .experience => "experience"
  | .education => "education"
  | .achievements => "achievements"
  | .skills => "skills"
  | .portfolio => "portfolio"
  | .personalAttributes => "personalAttributes"
  | .languages => "languages"
  | .references => "references"

def ofName? (s : String) : Option SectionKey :=
  all.find? (·.name == s)

def defaultHeading : SectionKey → String
  | .summary => "Professional Summary"
  | .football => "Football Credentials"
  | .experience => "Professional Experience"
  | .education => "Education"
  | .achievements => "Key Achievements"
  | .skills => "Core Competencies"
  | .portfolio => "Portfolio"
  | .personalAttributes => "Personal Attributes"
  | .languages => "Languages"
  | .references => "References"

def isConfigurable : SectionKey → Bool
  | .experience | .education | .references => false
  | _ => true

def defaultFieldTypes : SectionKey → FieldTypes
  | .experience | .education => .only .structured
  | .references => .only .references
  | _ => .only .paragraph

theorem mem_all (k : SectionKey) : k ∈ all := by
  cases k <;> decide

theorem ofName?_name (k : SectionKey) : ofName? k.name = some k := by
  cases k <;> decide

end SectionKey

@[ext]
structure SectionMap (α : Type) where
  get? : SectionKey → Option α

namespace SectionMap

variable {α : Type}

def empty : SectionMap α :=
  ⟨fun _ => none⟩

instance : Inhabited (SectionMap α) := ⟨empty⟩

def insert (m : SectionMap α) (k : SectionKey) (a : α) : SectionMap α :=
  ⟨fun j => if j = k then some a else m.get? j⟩

def erase (m : SectionMap α) (k : SectionKey) : SectionMap α :=
  ⟨fun j => if j = k then none else m.get? j⟩

def toList (m : SectionMap α) : List (SectionKey × α) :=
  SectionKey.all.filterMap fun k => (m.get? k).map (k, ·)

def ofList (l : List (SectionKey × α)) : SectionMap α :=
  l.foldl (fun m p => m.insert p.1 p.2) empty

def sameValues [DecidableEq α] (m n : SectionMap α) : Bool :=
  SectionKey.all.all fun k => m.get? k = n.get? k

@[simp] theorem get?_empty (k : SectionKey) : (empty : SectionMap α).get? k = none := rfl

@[simp] theorem get?_insert (m : SectionMap α) (k j : SectionKey) (a : α) :
    (m.insert k a).get? j = if j = k then some a else m.get? j := rfl

@[simp] theorem get?_erase (m : SectionMap α) (k j : SectionKey) :
    (m.erase k).get? j = if j = k then none else m.get? j := rfl

theorem mem_toList {m : SectionMap α} {k : SectionKey} {a : α} :
    (k, a) ∈ m.toList ↔ m.get? k = some a := by
  simp [toList, SectionKey.mem_all]

theorem sameValues_iff [DecidableEq α] {m n : SectionMap α} : m.sameValues n = true ↔ m = n := by
  constructor
  · intro h
    ext1
    funext k
    simpa using List.all_eq_true.mp h k k.mem_all
  · rintro rfl
    simp [sameValues]

instance [DecidableEq α] : DecidableEq (SectionMap α) := fun _ _ =>
  decidable_of_iff _ sameValues_iff

instance [Repr α] : Repr (SectionMap α) := ⟨fun m n => reprPrec m.toList n⟩

end SectionMap

@[ext]
structure SectionSet where
  contains : SectionKey → Bool

namespace SectionSet

def empty : SectionSet :=
  ⟨fun _ => false⟩

instance : Inhabited SectionSet := ⟨empty⟩

def put (s : SectionSet) (k : SectionKey) (b : Bool) : SectionSet :=
  ⟨fun j => if j = k then b else s.contains j⟩

def toList (s : SectionSet) : List SectionKey :=
  SectionKey.all.filter s.contains

def ofList (l : List SectionKey) : SectionSet :=
  l.foldl (fun s k => s.put k true) empty

def sameMembers (s t : SectionSet) : Bool :=
  SectionKey.all.all fun k => s.contains k = t.contains k

@[simp] theorem contains_empty (k : SectionKey) : empty.contains k = false := rfl

@[simp] theorem contains_put (s : SectionSet) (k j : SectionKey) (b : Bool) :
    (s.put k b).contains j = if j = k then b else s.contains j := rfl

theorem mem_toList {s : SectionSet} {k : SectionKey} : k ∈ s.toList ↔ s.contains k = true := by
  simp [toList, SectionKey.mem_all]

theorem contains_foldl_put (l : List SectionKey) (s : SectionSet) (k : SectionKey) :
    (l.foldl (fun s j => s.put j true) s).contains k = (s.contains k || l.contains k) := by
  induction l generalizing s with
  | nil => simp
  | cons j l ih =>
    rw [List.foldl_cons, ih, contains_put, List.contains_cons]
    by_cases h : k = j
    · simp [h]
    · simp [h, beq_false_of_ne h]

theorem contains_ofList (l : List SectionKey) (k : SectionKey) :
    (ofList l).contains k = l.contains k := by
  simp [ofList, contains_foldl_put]

theorem sameMembers_iff {s t : SectionSet} : s.sameMembers t = true ↔ s = t := by
  constructor
  · intro h
    ext1
    funext k
    simpa using List.all_eq_true.mp h k k.mem_all
  · rintro rfl
    simp [sameMembers]

instance : DecidableEq SectionSet := fun _ _ =>
  decidable_of_iff _ sameMembers_iff

instance : Repr SectionSet := ⟨fun s n => reprPrec s.toList n⟩

end SectionSet

end Vitae
