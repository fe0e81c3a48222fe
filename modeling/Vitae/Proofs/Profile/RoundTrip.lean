import Vitae.Profile.Parse
import Vitae.Proofs.Profile.Spelling
import Mathlib.Data.List.Induction

namespace Vitae

/-! ## What is kept by section -/

theorem SectionSet.ofList_eq {s : SectionSet} {l : List SectionKey} (same : ∀ k, k ∈ s.toList ↔ k ∈ l) :
    ofList l = s := by
  ext k
  rw [contains_ofList, Bool.eq_iff_iff, List.contains_iff_mem, ← same, mem_toList]

namespace SectionMap

variable {α : Type}

theorem ofList_concat (l : List (SectionKey × α)) (p : SectionKey × α) :
    ofList (l ++ [p]) = (ofList l).insert p.1 p.2 := by
  rw [ofList, List.foldl_append]
  rfl

theorem mem_of_get?_ofList {l : List (SectionKey × α)} {k : SectionKey} {a : α}
    (h : (ofList l).get? k = some a) : (k, a) ∈ l := by
  induction l using List.reverseRecOn with
  | nil => cases h
  | append_singleton l p ih =>
    rw [ofList_concat, get?_insert] at h
    split at h
    · case isTrue same =>
      cases h
      rw [same]
      exact List.mem_append_right l List.mem_cons_self
    · exact List.mem_append_left [p] (ih h)

theorem exists_get?_ofList {l : List (SectionKey × α)} {k : SectionKey} {a : α} (mem : (k, a) ∈ l) :
    ∃ b, (ofList l).get? k = some b := by
  induction l using List.reverseRecOn with
  | nil => cases mem
  | append_singleton l p ih =>
    rw [ofList_concat, get?_insert]
    split
    · exact ⟨p.2, rfl⟩
    · case isFalse other =>
      rcases List.mem_append.mp mem with mem | last
      · exact ih mem
      · rw [← List.mem_singleton.mp last] at other
        exact absurd rfl other

theorem ofList_eq {m : SectionMap α} {l : List (SectionKey × α)} (perm : m.toList.Perm l) :
    ofList l = m := by
  have same (k : SectionKey) (a : α) : (k, a) ∈ l ↔ m.get? k = some a := by
    rw [← perm.mem_iff, mem_toList]
  ext k a
  constructor
  · intro found
    exact (same k a).mp (mem_of_get?_ofList found)
  · intro kept
    obtain ⟨b, found⟩ := exists_get?_ofList ((same k a).mpr kept)
    have keptToo := (same k b).mp (mem_of_get?_ofList found)
    rw [found, ← keptToo, kept]

end SectionMap

/-! ## Laws of the schema -/

namespace Profile

theorem lawful_fieldTypes : Shape.fieldTypes.Lawful := by
  refine ⟨?_, fun _ _ => FieldTypes.ofList_eq⟩
  intro t
  cases t <;> decide

theorem find_sectionKey (k : SectionKey) :
    SectionKey.all.find? (fun j => j.name.toList == k.name.toList) = some k := by
  cases k <;> decide

theorem lawful_sectionSet : Shape.sectionSet.Lawful :=
  ⟨find_sectionKey, fun _ _ => SectionSet.ofList_eq⟩

theorem lawful_sectionMap {α : Type} {item : Shape α} (lawful : item.Lawful) :
    (Shape.sectionMap item).Lawful :=
  ⟨⟨find_sectionKey, lawful⟩, fun _ _ => SectionMap.ofList_eq⟩

theorem lawful_link : Shape.link.Lawful := by
  refine ⟨?_, ?_⟩
  · simp [linkFields, Fields.Lawful, Shape.Lawful, Fields.Untouched, Fields.Keeps, Fields.names]
  · rintro ⟨⟩ ⟨⟩ agree
    simpa [linkFields, Fields.Agree] using agree

theorem lawful_experience : Shape.experience.Lawful := by
  refine ⟨?_, ?_⟩
  · simp [experienceFields, Fields.Lawful, Shape.Lawful, Fields.Untouched, Fields.Keeps, Fields.names]
  · rintro ⟨⟩ ⟨⟩ agree
    simpa [experienceFields, Fields.Agree] using agree

theorem lawful_education : Shape.education.Lawful := by
  refine ⟨?_, ?_⟩
  · simp [educationFields, Fields.Lawful, Shape.Lawful, Fields.Untouched, Fields.Keeps, Fields.names]
  · rintro ⟨⟩ ⟨⟩ agree
    simpa [educationFields, Fields.Agree] using agree

theorem lawful_customSection : Shape.customSection.Lawful := by
  refine ⟨?_, ?_⟩
  · simp [customSectionFields, Fields.Lawful, Shape.Lawful, Fields.Untouched, Fields.Keeps, Fields.names,
      lawful_fieldTypes, lawful_link]
  · rintro ⟨⟩ ⟨⟩ agree
    simpa [customSectionFields, Fields.Agree] using agree

theorem lawful_document : Shape.document.Lawful := by
  have headings : (Shape.sectionMap .text).Lawful := lawful_sectionMap trivial
  have types : (Shape.sectionMap .fieldTypes).Lawful := lawful_sectionMap lawful_fieldTypes
  have links : (Shape.sectionMap (.list .link)).Lawful := lawful_sectionMap lawful_link
  refine ⟨?_, ?_⟩
  · simp [documentFields, contentFields, entryFields, settingFields, Fields.Lawful, Shape.Lawful,
      Fields.Untouched, Fields.Keeps, Fields.names, lawful_experience, lawful_education,
      lawful_customSection, lawful_sectionSet, headings, types, links]
  · rintro ⟨⟨⟩⟩ ⟨⟨⟩⟩ agree
    simpa [documentFields, contentFields, entryFields, settingFields, Fields.Agree, and_assoc] using agree

/-! ## Round trips -/

theorem ofJsonText_compact {α : Type} {shape : Shape α} (lawful : shape.Lawful) {a : α} {j : Json}
    (spelled : shape.Spells a j) : shape.ofJsonText j.compact = .ok a := by
  obtain ⟨reads, -⟩ := shape.ofJsonText_eq .none .none j.written
  have read := reads a (shape.ofWritten?_written lawful spelled)
  rw [Json.text_written] at read
  exact (congrArg shape.ofJsonText (List.append_nil j.compact)).symm.trans read

theorem parse_object (members : List (List Char × Json)) : parse .json (Json.object members).compact =
    (Shape.document.ofJsonText (Json.object members).compact).mapError .json := by
  rw [Json.compact]
  rfl

/-- A document is read from each of its spellings, and the value that is written for it is one of them. -/
theorem parse_spelling (d : Document) : Shape.document.Spells d (Shape.document.toJson d) ∧
    ∀ j, Shape.document.Spells d j → parse .json j.compact = .ok d := by
  refine ⟨Shape.document.spells_toJson d, fun j spelled => ?_⟩
  have read := ofJsonText_compact lawful_document spelled
  obtain ⟨members, -, rfl, -⟩ := spelled
  rw [parse_object, read]
  rfl

theorem parse_spelling_shuffled :
    let d : Document := { identity := { name := "Ada" }, hidden := .ofList [.football, .skills] }
    let j : Json := .object
      [("hiddenSections".toList, .array
        [.string "skills".toList, .string "football".toList, .string "skills".toList]),
        ("name".toList, .string "Ada".toList)]
    Shape.document.Spells d j ∧ parse .json j.compact = .ok d := by
  intro d j
  have hidden : Shape.sectionSet.Spells d.hidden (.array
      [.string "skills".toList, .string "football".toList, .string "skills".toList]) := by
    refine ⟨[.skills, .football, .skills], fun k => ?_, _, rfl, .cons rfl (.cons rfl (.cons rfl .nil))⟩
    cases k <;> decide
  have settings : settingFields.Spells {} d [("hiddenSections".toList, .array
      [.string "skills".toList, .string "football".toList, .string "skills".toList])] :=
    .inl ⟨rfl, .inr ⟨_, _, rfl, hidden, .inl ⟨rfl, .inl ⟨rfl, rfl⟩⟩⟩⟩
  have members : documentFields.Spells {} d
      [("name".toList, .string "Ada".toList), ("hiddenSections".toList, .array
        [.string "skills".toList, .string "football".toList, .string "skills".toList])] := by
    refine .inr ⟨_, _, rfl, rfl, ?_⟩
    iterate 18 refine .inl ⟨rfl, ?_⟩
    exact settings
  have spelled : Shape.document.Spells d j := ⟨_, _, rfl, .swap _ _ _, members⟩
  exact ⟨spelled, (parse_spelling d).2 j spelled⟩

end Profile

end Vitae
