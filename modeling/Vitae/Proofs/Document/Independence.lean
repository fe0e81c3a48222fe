import Vitae.Proofs.Document.Slot

namespace Vitae

namespace Document

/-- Two documents answer alike to whatever can be asked, but for what the slot is about. -/
structure SameBeside (s : Slot) (d e : Document) : Prop where
  heading : ∀ k, s ≠ .heading k → d.heading k = e.heading k
  isHidden : ∀ k, s ≠ .visibility k → d.isHidden k = e.isHidden k
  fieldTypeSet : ∀ k, s ≠ .fieldTypes k → d.fieldTypeSet k = e.fieldTypeSet k
  linkList : ∀ k, s ≠ .links k → d.linkList k = e.linkList k
  content : ∀ k, d.content k = e.content k
  fields : d.identity.fields = e.identity.fields
  experience : s ≠ .experience → d.experience = e.experience
  education : s ≠ .education → d.education = e.education
  customSections : s ≠ .customSections → d.customSections = e.customSections

theorem sameBeside_write (d : Document) (s : Slot) (v : s.Value) : SameBeside s (d.write s v) d where
  heading k ne := by
    have kept : (d.write s v).headings.get? k = d.headings.get? k := read_write_of_ne ne d v
    rw [Document.heading, Document.heading, kept]
  isHidden k ne := read_write_of_ne ne d v
  fieldTypeSet k ne := by
    have kept : (d.write s v).fieldTypes.get? k = d.fieldTypes.get? k := read_write_of_ne ne d v
    rw [Document.fieldTypeSet, Document.fieldTypeSet, kept]
  linkList k ne := by
    have kept : (d.write s v).links.get? k = d.links.get? k := read_write_of_ne ne d v
    rw [Document.linkList, Document.linkList, kept]
  content k := by cases s <;> cases k <;> rfl
  fields := by cases s <;> rfl
  experience ne := read_write_of_ne ne d v
  education ne := read_write_of_ne ne d v
  customSections ne := read_write_of_ne ne d v

end Document

namespace Edit

variable {a b : Edit}

theorem reply_apply_of_ne (ne : a.slot ≠ b.slot) (d : Document) :
    (b.apply (a.apply d).2).1 = (b.apply d).1 := by
  simp only [apply_eq, Prod.map_fst, Prod.map_snd, Document.read_write_of_ne ne]

theorem apply_comm (ne : a.slot ≠ b.slot) (d : Document) :
    (b.apply (a.apply d).2).2 = (a.apply (b.apply d).2).2 := by
  simp only [apply_eq, Prod.map_snd, Document.read_write_of_ne ne, Document.read_write_of_ne ne.symm]
  exact Document.write_comm ne d _ _

/-- Edits of different slots commute, and no edit changes what can be asked of another slot. -/
theorem independent :
    (∀ (d : Document) (a b : Edit), a.slot ≠ b.slot →
      (b.apply (a.apply d).2).1 = (b.apply d).1 ∧ (a.apply (b.apply d).2).1 = (a.apply d).1 ∧
        (b.apply (a.apply d).2).2 = (a.apply (b.apply d).2).2) ∧
      ∀ (d : Document) (a : Edit), Document.SameBeside a.slot (a.apply d).2 d := by
  refine ⟨fun d a b ne => ⟨reply_apply_of_ne ne d, reply_apply_of_ne ne.symm d, apply_comm ne d⟩, ?_⟩
  intro d a
  rw [apply_eq]
  exact d.sameBeside_write _ _

theorem independent_fieldTypes :
    let d : Document := ({} : Document).edited [.toggleFieldType .skills .bullet]
    let a : Edit := .toggleFieldType .skills .bullet
    let b : Edit := .toggleFieldType .summary .bullet
    a.slot ≠ b.slot ∧ (b.apply (a.apply d).2).1 = (b.apply d).1 ∧
      (b.apply (a.apply d).2).2 = (a.apply (b.apply d).2).2 ∧
      (a.apply d).2.fieldTypeSet .summary = d.fieldTypeSet .summary := by
  intro d a b
  have ne : a.slot ≠ b.slot := by decide
  obtain ⟨reply, -, same⟩ := independent.1 d a b ne
  exact ⟨ne, reply, same, (independent.2 d a).fieldTypeSet .summary (by decide)⟩

end Edit

end Vitae
