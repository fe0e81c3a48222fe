import Vitae.Document.Edit

/-!
# Edits and their slots

A slot is a part of a document that is kept on its own: one setting of one section, or one of the three
lists of entries. An edit reads one slot and writes the same slot (`apply_eq`), whatever it answers, so
what holds of reading and writing slots holds of all edits at once.
-/

namespace Vitae

/-! ## Slots -/

inductive Slot where
  | heading (k : SectionKey)
  | visibility (k : SectionKey)
  | fieldTypes (k : SectionKey)
  | links (k : SectionKey)
  | experience
  | education
  | customSections
  deriving DecidableEq, Repr

abbrev Slot.Value : Slot → Type
  | .heading _ => Option String
  | .visibility _ => Bool
  | .fieldTypes _ => Option FieldTypes
  | .links _ => Option (List Link)
  | .experience => List Experience
  | .education => List Education
  | .customSections => List CustomSection

namespace SectionMap

variable {α : Type}

def put (m : SectionMap α) (k : SectionKey) (a : Option α) : SectionMap α :=
  ⟨fun j => if j = k then a else m.get? j⟩

@[simp] theorem get?_put (m : SectionMap α) (k j : SectionKey) (a : Option α) :
    (m.put k a).get? j = if j = k then a else m.get? j := rfl

theorem put_get? (m : SectionMap α) (k : SectionKey) : m.put k (m.get? k) = m := by
  ext1
  funext j
  by_cases same : j = k <;> simp [same]

theorem put_comm (m : SectionMap α) {k j : SectionKey} (ne : k ≠ j) (a b : Option α) :
    (m.put k a).put j b = (m.put j b).put k a := by
  ext1
  funext i
  simp only [get?_put]
  by_cases first : i = k
  · rw [if_pos first, if_pos first, first, if_neg ne]
  · rw [if_neg first, if_neg first]

end SectionMap

namespace SectionSet

theorem put_contains (s : SectionSet) (k : SectionKey) : s.put k (s.contains k) = s := by
  ext1
  funext j
  by_cases same : j = k <;> simp [same]

theorem put_comm (s : SectionSet) {k j : SectionKey} (ne : k ≠ j) (a b : Bool) :
    (s.put k a).put j b = (s.put j b).put k a := by
  ext1
  funext i
  simp only [contains_put]
  by_cases first : i = k
  · rw [if_pos first, if_pos first, first, if_neg ne]
  · rw [if_neg first, if_neg first]

end SectionSet

namespace Document

def read (d : Document) : (s : Slot) → s.Value
  | .heading k => d.headings.get? k
  | .visibility k => d.hidden.contains k
  | .fieldTypes k => d.fieldTypes.get? k
  | .links k => d.links.get? k
  | .experience => d.experience
  | .education => d.education
  | .customSections => d.customSections

def write (d : Document) : (s : Slot) → s.Value → Document
  | .heading k, v => { d with headings := d.headings.put k v }
  | .visibility k, v => { d with hidden := d.hidden.put k v }
  | .fieldTypes k, v => { d with fieldTypes := d.fieldTypes.put k v }
  | .links k, v => { d with links := d.links.put k v }
  | .experience, v => { d with experience := v }
  | .education, v => { d with education := v }
  | .customSections, v => { d with customSections := v }

variable {s t : Slot}

@[simp] theorem read_write_self (d : Document) (s : Slot) (v : s.Value) : (d.write s v).read s = v := by
  cases s <;> simp [read, write]

theorem read_write_of_ne (ne : s ≠ t) (d : Document) (v : s.Value) : (d.write s v).read t = d.read t := by
  cases s <;> cases t <;> first | rfl | exact absurd rfl ne | skip
  -- two settings of one kind, for different sections
  all_goals exact if_neg fun same => ne (congrArg _ same.symm)

theorem write_read (d : Document) (s : Slot) : d.write s (d.read s) = d := by
  cases s <;> simp [read, write, SectionMap.put_get?, SectionSet.put_contains]

theorem write_comm (ne : s ≠ t) (d : Document) (v : s.Value) (w : t.Value) :
    (d.write s v).write t w = (d.write t w).write s v := by
  cases s <;> cases t <;> first | rfl | exact absurd rfl ne | skip
  case heading.heading k j =>
    have keys : k ≠ j := fun same => ne (congrArg _ same)
    simp only [write, SectionMap.put_comm _ keys]
  case visibility.visibility k j =>
    have keys : k ≠ j := fun same => ne (congrArg _ same)
    simp only [write, SectionSet.put_comm _ keys]
  case fieldTypes.fieldTypes k j =>
    have keys : k ≠ j := fun same => ne (congrArg _ same)
    simp only [write, SectionMap.put_comm _ keys]
  case links.links k j =>
    have keys : k ≠ j := fun same => ne (congrArg _ same)
    simp only [write, SectionMap.put_comm _ keys]

end Document

/-! ## Edits -/

inductive ListEdit (α : Type) where
  | add (a : α)
  | update (i : Nat) (a : α)
  | remove (i : Nat)
  deriving Repr

inductive Edit where
  | setHeading (k : SectionKey) (text : String)
  | setHidden (k : SectionKey) (hidden : Bool)
  | toggleHidden (k : SectionKey)
  | toggleFieldType (k : SectionKey) (t : FieldType)
  | setLinks (k : SectionKey) (links : List Link)
  | experience (change : ListEdit Experience)
  | education (change : ListEdit Education)
  | customSections (change : ListEdit CustomSection)
  | moveCustomSection (i j : Nat)
  deriving Repr

namespace Edit

inductive Reply where
  | nothing
  | made (b : Bool)
  | experience (removed : Option Experience)
  | education (removed : Option Education)
  | customSection (removed : Option CustomSection)
  deriving DecidableEq, Repr

def apply (d : Document) : Edit → Reply × Document
  | .setHeading k text => (.nothing, d.setHeading k text)
  | .setHidden k hidden => (.nothing, d.setHidden k hidden)
  | .toggleHidden k => (.nothing, d.toggleHidden k)
  | .toggleFieldType k t => (d.toggleFieldType k t).map .made id
  | .setLinks k links => (.nothing, d.setLinks k links)
  | .experience (.add e) => (.nothing, d.addExperience e)
  | .experience (.update i e) => (d.updateExperience i e).map .made id
  | .experience (.remove i) => (d.removeExperience i).map .experience id
  | .education (.add e) => (.nothing, d.addEducation e)
  | .education (.update i e) => (d.updateEducation i e).map .made id
  | .education (.remove i) => (d.removeEducation i).map .education id
  | .customSections (.add s) => (.nothing, d.addCustomSection s)
  | .customSections (.update i s) => (d.updateCustomSection i s).map .made id
  | .customSections (.remove i) => (d.removeCustomSection i).map .customSection id
  | .moveCustomSection i j => (d.moveCustomSection i j).map .made id

def slot : Edit → Slot
  | .setHeading k _ => .heading k
  | .setHidden k _ | .toggleHidden k => .visibility k
  | .toggleFieldType k _ => .fieldTypes k
  | .setLinks k _ => .links k
  | .experience _ => .experience
  | .education _ => .education
  | .customSections _ | .moveCustomSection .. => .customSections

end Edit

def ListEdit.act {α : Type} (removed : Option α → Edit.Reply) (l : List α) :
    ListEdit α → Edit.Reply × List α
  | .add a => (.nothing, l ++ [a])
  | .update i a => (replaceAt l i a).map .made id
  | .remove i => (removeAt l i).map removed id

namespace Edit

def act : (e : Edit) → e.slot.Value → Reply × e.slot.Value
  | .setHeading _ text, _ => (.nothing, some text)
  | .setHidden _ hidden, _ => (.nothing, hidden)
  | .toggleHidden _, hidden => (.nothing, !hidden)
  | .toggleFieldType k t, types =>
    if k.isConfigurable && t.isToggleable then
      (.made true, some ((types.getD k.defaultFieldTypes).toggle t))
    else (.made false, types)
  | .setLinks _ links, _ => (.nothing, if links.isEmpty then none else some links)
  | .experience change, l => change.act .experience l
  | .education change, l => change.act .education l
  | .customSections change, l => change.act .customSection l
  | .moveCustomSection i j, l => (moveTo l i j).map .made id

/-- An edit depends on its slot alone and changes nothing else. -/
theorem apply_eq (d : Document) (e : Edit) :
    e.apply d = (e.act (d.read e.slot)).map id (d.write e.slot) := by
  cases e with
  | setHeading k text => rfl
  | setHidden k hidden => rfl
  | toggleHidden k => rfl
  | toggleFieldType k t =>
    by_cases free : (k.isConfigurable && t.isToggleable) = true
    · have inForce : d.fieldTypeSet k = (d.fieldTypes.get? k).getD k.defaultFieldTypes :=
        if_pos (Bool.and_eq_true_iff.mp free).1
      simp only [apply, Document.toggleFieldType, act, if_pos free, inForce]
      rfl
    · have kept := d.write_read (.fieldTypes k)
      simp only [apply, Document.toggleFieldType, act, if_neg free, slot, Prod.map, kept, id]
  | setLinks k links => cases links <;> rfl
  | experience change => cases change <;> rfl
  | education change => cases change <;> rfl
  | customSections change => cases change <;> rfl
  | moveCustomSection i j => rfl

end Edit

def Document.edited (d : Document) (es : List Edit) : Document :=
  es.foldl (fun d e => (e.apply d).2) d

end Vitae
