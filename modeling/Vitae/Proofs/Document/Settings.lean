import Vitae.Document.Sample
import Vitae.Proofs.Document.Slot

namespace Vitae

/-! ## Field types that a user may switch -/

namespace FieldTypes

def Toggleable (s : FieldTypes) : Prop :=
  ∀ t, s.contains t = true → t.isToggleable = true

theorem toggleable_paragraph : (only .paragraph).Toggleable := by
  intro t mem
  rw [contains_only] at mem
  rw [← eq_of_beq mem]
  rfl

theorem Toggleable.toggle {s : FieldTypes} {t : FieldType} (h : s.Toggleable)
    (free : t.isToggleable = true) : (s.toggle t).Toggleable := by
  intro u mem
  rw [contains_toggle] at mem
  split at mem
  · rw [eq_of_beq mem]
    rfl
  · by_cases same : t = u
    · rwa [← same]
    · rw [beq_false_of_ne same, Bool.bne_false] at mem
      exact h u mem

end FieldTypes

theorem SectionKey.toggleable_default {k : SectionKey} (free : k.isConfigurable = true) :
    k.defaultFieldTypes.Toggleable := by
  have paragraph : k.defaultFieldTypes = .only .paragraph := by
    cases k <;> first | rfl | cases free
  rw [paragraph]
  exact FieldTypes.toggleable_paragraph

/-! ## What edits keep -/

def Slot.Sound : (s : Slot) → s.Value → Prop
  | .fieldTypes k, types => ∀ ts ∈ types, k.isConfigurable = true ∧ ts.Toggleable
  | .links _, kept => kept ≠ some []
  | .heading _, _ | .visibility _, _ | .experience, _ | .education, _ | .customSections, _ => True

namespace Edit

theorem sound_act (e : Edit) {v : e.slot.Value} (h : e.slot.Sound v) : e.slot.Sound (e.act v).2 := by
  cases e with
  | toggleFieldType k t =>
    rw [act]
    split
    · case isTrue free =>
      rw [Bool.and_eq_true] at free
      have inForce : (v.getD k.defaultFieldTypes).Toggleable := by
        cases v with
        | none => exact SectionKey.toggleable_default free.1
        | some ts => exact (h ts rfl).2
      intro ts stored
      rw [← Option.some.inj stored]
      exact ⟨free.1, inForce.toggle free.2⟩
    · exact h
  | setLinks k links =>
    intro empty
    cases links <;> cases empty
  | _ => trivial

theorem sound_apply (e : Edit) {d : Document} (h : ∀ s : Slot, s.Sound (d.read s)) (s : Slot) :
    s.Sound ((e.apply d).2.read s) := by
  rw [apply_eq]
  by_cases own : e.slot = s
  · subst own
    rw [Prod.map_snd, Document.read_write_self]
    exact e.sound_act (h _)
  · rw [Prod.map_snd, Document.read_write_of_ne own]
    exact h s

end Edit

namespace Document

theorem sound_edited (es : List Edit) {d : Document} (h : ∀ s : Slot, s.Sound (d.read s)) :
    ∀ s : Slot, s.Sound ((d.edited es).read s) := by
  induction es generalizing d with
  | nil => exact h
  | cons e es ih => exact ih (e.sound_apply h)

structure Settled (d : Document) : Prop where
  configurable : ∀ k ts, d.fieldTypes.get? k = some ts → k.isConfigurable = true
  switchable : ∀ k ts, d.fieldTypes.get? k = some ts →
    ts.toList ≠ [] ∧ ts.toList ⊆ [.paragraph, .bullet, .hyperlink, .text]
  links : ∀ k, d.links.get? k ≠ some []
  fixed : d.fieldTypeSet .experience = .only .structured ∧ d.fieldTypeSet .education = .only .structured ∧
    d.fieldTypeSet .references = .only .references
  heading : ∀ k, isBlankString (d.heading k) = false

theorem settled_of_sound {d : Document} (h : ∀ s : Slot, s.Sound (d.read s)) : d.Settled where
  configurable k ts stored := (h (.fieldTypes k) ts stored).1
  switchable k ts stored := by
    refine ⟨ts.toList_ne_nil, fun t mem => ?_⟩
    have free := (h (.fieldTypes k) ts stored).2 t (FieldTypes.mem_toList.mp mem)
    cases t <;> first | decide | cases free
  links k := h (.links k)
  fixed := ⟨rfl, rfl, rfl⟩
  heading := d.heading_visible

theorem sound_new (s : Slot) : s.Sound (({} : Document).read s) := by
  cases s <;> first | trivial | nofun

theorem sound_sample (s : Slot) : s.Sound (sample.read s) := by
  cases s with
  | fieldTypes k =>
    intro ts stored
    cases k <;> cases stored <;> exact ⟨rfl, fun t mem => by cases t <;> first | rfl | cases mem⟩
  | links k =>
    intro empty
    cases k <;> cases empty
  | _ => trivial

/-- However a new document or the sample is edited, with whatever arguments, its settings are in order. -/
theorem settled_edited (start : Document) (known : start = {} ∨ start = sample) (es : List Edit) :
    (start.edited es).Settled := by
  apply settled_of_sound
  apply sound_edited
  rcases known with rfl | rfl
  · exact sound_new
  · exact sound_sample

theorem settled_edited_sample :
    (sample = {} ∨ sample = sample) ∧
      (sample.edited [.toggleFieldType .languages .bullet, .toggleFieldType .references .bullet,
        .setLinks .portfolio [], .setHeading .skills " "]).Settled :=
  ⟨.inr rfl, settled_edited sample (.inr rfl) _⟩

end Document

end Vitae
