import Vitae.Proofs.Body.Blocks
import Vitae.Proofs.Body.Items
import Vitae.Proofs.Section.Form

namespace Vitae

open Text Tex

/-! ## Free texts and links -/

namespace Body

/-- A bullet list has an item for each line with more on it than a bullet sign. -/
def NoText (content : List Char) (types : FieldTypes) : Prop :=
  if types.contains .bullet then ∀ line ∈ trimmedLines content, line = [] ∨ isLoneSign line = true
  else allBlank content = true

def NoLinks (types : FieldTypes) (links : List Link) : Prop :=
  types.contains .hyperlink = false ∨ ¬∃ l ∈ links, isBlankString l.label = false ∧ Target.url? l.url.toList ≠ none

variable {content : List Char} {types : FieldTypes} {links : List Link}

theorem bulletLines_eq_nil_iff :
    bulletLines content = [] ↔ ∀ line ∈ trimmedLines content, line = [] ∨ isLoneSign line = true := by
  rw [bulletLines_eq, List.map_eq_nil_iff, List.filter_eq_nil_iff]
  simp only [List.mem_filter, Bool.not_eq_true', Bool.not_eq_false, and_imp, List.isEmpty_eq_false_iff]
  exact forall₂_congr fun line _ => Decidable.or_iff_not_imp_left.symm

theorem forall_trimmedLines_eq_nil_iff {s : List Char} :
    (∀ line ∈ trimmedLines s, line = []) ↔ allBlank s = true := by
  have feed : isBlank '\n' = true := by decide
  simp only [trimmedLines, List.forall_mem_map, trim_eq_nil_iff]
  fun_induction lines s with
  | case1 => simp [allBlank]
  | case2 s ih => simpa [allBlank, feed] using ih
  | case3 c s _ none ih =>
    rw [none] at ih
    have rest : s.all isBlank = true := ih.mp (List.forall_mem_nil _)
    simp [allBlank, List.all_cons, rest]
  | case4 c s _ l ls cut ih =>
    rw [cut] at ih
    simpa [allBlank, and_assoc] using and_congr_right fun _ => ih

theorem records_eq_nil_iff : records content = [] ↔ allBlank content = true := by
  have lines := flatten_records content
  rw [← forall_trimmedLines_eq_nil_iff]
  constructor
  · intro none
    rw [none, List.flatten_nil, eq_comm, List.filter_eq_nil_iff] at lines
    simpa using lines
  · intro blank
    have none : (trimmedLines content).filter (!·.isEmpty) = [] := by
      simpa [List.filter_eq_nil_iff] using blank
    rw [none, List.flatten_eq_nil_iff] at lines
    refine List.eq_nil_iff_forall_not_mem.mpr fun r mem => (isRecord_of_mem_records r mem).present (lines r mem)

theorem textBody_eq_nil_iff : textBody content types = [] ↔ NoText content types := by
  unfold textBody NoText
  split
  · rw [bulletList_eq_nil_iff, bulletLines_eq_nil_iff]
  · split
    · rw [referenceBlocks_eq_nil_iff, records_eq_nil_iff]
    · exact escapeTrimmed_eq_nil_iff

theorem linkItem?_eq_none_iff {l : Link} :
    linkItem? l = none ↔ ¬(isBlankString l.label = false ∧ Target.url? l.url.toList ≠ none) := by
  have label : (trim l.label.toList).isEmpty = isBlankString l.label := by
    rw [Bool.eq_iff_iff, List.isEmpty_iff, trim_eq_nil_iff]
    rfl
  rw [linkItem?, label]
  cases isBlankString l.label <;> simp

theorem linkBody_eq_nil_iff : linkBody types links = [] ↔ NoLinks types links := by
  unfold linkBody NoLinks
  cases types.contains .hyperlink with
  | false => simp
  | true => simp [linkList_eq_nil_iff, linkItem?_eq_none_iff]

theorem format_eq_nil_iff :
    format content types links = [] ↔ NoText content types ∧ NoLinks types links := by
  rw [format, joinPresent_eq_nil_iff, ← textBody_eq_nil_iff, ← linkBody_eq_nil_iff]
  simp

end Body

/-! ## Sections -/

def Document.HasNothing (d : Document) : SectionKey → Prop
  | .experience => ∀ e ∈ d.experience, e.isBlank = true
  | .education => ∀ e ∈ d.education, e.isBlank = true
  | k => Body.NoText (d.content k).toList (d.fieldTypeSet k) ∧ Body.NoLinks (d.fieldTypeSet k) (d.linkList k)

theorem HeaderMarkup.isEmpty_of_write {m : HeaderMarkup} {h : EntryHeader} (empty : m.write h h.shown = []) :
    h.IsEmpty := by
  have fields := (m.filled_write h h.shown).eq_nil empty
  rw [h.map_field_shown] at fields
  have none (t : Tex) (mem : t ∈ [h.title, h.organization, h.dates]) : t = [] := by
    by_contra ne
    exact ne (fields t (List.mem_filter.mpr ⟨mem, by simpa using ne⟩))
  exact ⟨none _ (by simp), none _ (by simp), none _ (by simp)⟩

theorem join_eq_nil_iff {separator : Tex} {parts : List Tex} (present : ∀ p ∈ parts, p ≠ []) :
    join separator parts = [] ↔ parts = [] := by
  refine ⟨fun empty => ?_, fun none => none ▸ rfl⟩
  by_contra ne
  exact join_ne_nil present ne empty

namespace Layout

theorem render_experience_ne_nil (l : Layout) {e : Experience} (visible : e.isBlank = false) :
    e.render l.style.experience ≠ [] := by
  intro empty
  rw [Experience.render_eq _ e l.listOpening_eq] at empty
  obtain ⟨header, list⟩ := List.append_eq_nil_iff.mp empty
  have details : e.details = [] := by
    cases cut : e.details with
    | nil => rfl
    | cons d ds => simp [cut, listing] at list
  rw [← l.write_experienceMarkup] at header
  have blank := Experience.isBlank_of_isEmpty (HeaderMarkup.isEmpty_of_write header) details
  exact Bool.noConfusion (visible.symm.trans blank)

theorem render_education_ne_nil (l : Layout) {e : Education} (visible : e.isBlank = false) :
    e.render l.style.education ≠ [] := by
  intro empty
  unfold Education.render at empty
  dsimp only at empty
  split at empty
  · case isTrue idle =>
    rw [← l.write_educationMarkup] at empty
    have blank := Education.isBlank_of_isEmpty (HeaderMarkup.isEmpty_of_write empty) (by simpa using idle)
    exact Bool.noConfusion (visible.symm.trans blank)
  · simp at empty

theorem renderAll_experience_eq_nil_iff (l : Layout) {es : List Experience} :
    Experience.renderAll l.style.experience es = [] ↔ ∀ e ∈ es, e.isBlank = true := by
  rw [Experience.renderAll, join_eq_nil_iff]
  · simp [List.filter_eq_nil_iff]
  · refine List.forall_mem_map.mpr fun e mem => l.render_experience_ne_nil ?_
    simpa using (List.mem_filter.mp mem).2

theorem renderAll_education_eq_nil_iff (l : Layout) {es : List Education} :
    Education.renderAll l.style.education es = [] ↔ ∀ e ∈ es, e.isBlank = true := by
  rw [Education.renderAll, join_eq_nil_iff]
  · simp [List.filter_eq_nil_iff]
  · refine List.forall_mem_map.mpr fun e mem => l.render_education_ne_nil ?_
    simpa using (List.mem_filter.mp mem).2

theorem body_eq_nil_iff (l : Layout) (d : Document) (k : SectionKey) : l.style.body d k = [] ↔ d.HasNothing k := by
  cases k with
  | experience => exact l.renderAll_experience_eq_nil_iff
  | education => exact l.renderAll_education_eq_nil_iff
  | _ => exact Body.format_eq_nil_iff

theorem section?_eq_none_iff (l : Layout) (d : Document) (k : SectionKey) :
    l.style.section? d k = none ↔ d.isHidden k = true ∨ d.HasNothing k := by
  rw [← l.body_eq_nil_iff, SectionStyle.section?]
  cases d.isHidden k <;> simp

/-- A section is there exactly when it is not hidden and has something to show. An entry that is not blank is
something in every layout, and a blank one makes no difference. -/
theorem presence_of_sections :
    (∀ content types links, Body.format content types links = [] ↔
      Body.NoText content types ∧ Body.NoLinks types links) ∧
    (∀ (l : Layout) (d : Document) (k : SectionKey),
      l.style.section? d k = none ↔ d.isHidden k = true ∨ d.HasNothing k) ∧
    (∀ (l : Layout) (e : Experience), e.isBlank = false → e.render l.style.experience ≠ []) ∧
    (∀ (l : Layout) (e : Education), e.isBlank = false → e.render l.style.education ≠ []) ∧
    (∀ (l : Layout) (es fs : List Experience) (e : Experience), e.isBlank = true →
      Experience.renderAll l.style.experience (es ++ e :: fs) = Experience.renderAll l.style.experience (es ++ fs)) ∧
    ∀ (l : Layout) (es fs : List Education) (e : Education), e.isBlank = true →
      Education.renderAll l.style.education (es ++ e :: fs) = Education.renderAll l.style.education (es ++ fs) := by
  refine ⟨fun _ _ _ => Body.format_eq_nil_iff, section?_eq_none_iff, fun l e => l.render_experience_ne_nil,
    fun l e => l.render_education_ne_nil, ?_, ?_⟩
  · intro l es fs e blank
    simp [Experience.renderAll, blank]
  · intro l es fs e blank
    simp [Education.renderAll, blank]

theorem presence_of_sections_sparse :
    let detail : Experience := { details := ["", "x"] }
    let activities : Education := { activities := "x" }
    let someBlank : Experience := { details := [" "] }
    let allBlank : Education := { degree := "\n" }
    (detail.isBlank = false ∧ detail.render modern.style.experience ≠ []) ∧
      (activities.isBlank = false ∧ activities.render executiveGray.style.education ≠ []) ∧
      (someBlank.isBlank = true ∧
        Experience.renderAll classic.style.experience ([detail] ++ someBlank :: [detail]) =
          Experience.renderAll classic.style.experience ([detail] ++ [detail])) ∧
      allBlank.isBlank = true ∧
        Education.renderAll classic.style.education ([activities] ++ allBlank :: []) =
          Education.renderAll classic.style.education ([activities] ++ []) := by
  intro detail activities someBlank allBlank
  have visible : detail.isBlank = false := by decide
  have active : activities.isBlank = false := by decide
  have blank : someBlank.isBlank = true := by decide
  have nothing : allBlank.isBlank = true := by decide
  obtain ⟨-, -, experience, education, without, withoutEducation⟩ := presence_of_sections
  exact ⟨⟨visible, experience .modern detail visible⟩, ⟨active, education .executiveGray activities active⟩,
    ⟨blank, without .classic [detail] [detail] someBlank blank⟩,
    nothing, withoutEducation .classic [activities] [] allBlank nothing⟩

end Layout

end Vitae
