import Vitae.Proofs.Reading.Body

namespace Vitae

open Text Tex

variable {g : Dialect} {d : Document}

/-! ## Fields of entries -/

theorem escapeTrimmed_eq_nil_iff {s : List Char} : escapeTrimmed s = [] ↔ allBlank s = true := by
  rw [escapeTrimmed, escape_eq_nil_iff, trim_eq_nil_iff]

theorem joinPresent_eq_nil_iff {separator : Tex} {parts : List Tex} :
    joinPresent separator parts = [] ↔ ∀ p ∈ parts, p = [] := by
  constructor
  · intro h p mem
    by_contra ne
    have kept : p ∈ parts.filter (!·.isEmpty) := by simp [mem, ne]
    refine join_ne_nil ?_ (List.ne_nil_of_mem kept) h
    exact forall_mem_present fun _ _ ne => ne
  · intro h
    have none : parts.filter (!·.isEmpty) = [] := by
      simpa [List.filter_eq_nil_iff] using h
    rw [joinPresent, none]
    rfl

theorem dateRange_eq_nil_iff {start finish : List Char} :
    dateRange start finish = [] ↔ allBlank start = true ∧ allBlank finish = true := by
  simp [dateRange, joinPresent_eq_nil_iff, escapeTrimmed_eq_nil_iff]

theorem Tex.Block.dateRange (start finish : List Char) : Block g (dateRange start finish) :=
  .joinPresent (.text rfl) (forall_mem_pair (.escapeTrimmed start) (.escapeTrimmed finish))

structure EntryHeader.Fits (g : Dialect) (h : EntryHeader) : Prop where
  title : Block g h.title
  organization : Block g h.organization
  dates : Block g h.dates

def EntryHeader.IsEmpty (h : EntryHeader) : Prop :=
  h.title = [] ∧ h.organization = [] ∧ h.dates = []

theorem Experience.fits_entryHeader (e : Experience) : e.entryHeader.Fits g :=
  ⟨.escapeTrimmed _, .escapeTrimmed _, .dateRange _ _⟩

theorem Education.fits_entryHeader (e : Education) : e.entryHeader.Fits g :=
  ⟨.escapeTrimmed _, .escapeTrimmed _, .dateRange _ _⟩

theorem Experience.isBlank_of_isEmpty {e : Experience} (header : e.entryHeader.IsEmpty)
    (details : e.details = []) : e.isBlank = true := by
  obtain ⟨title, organization, dates⟩ := header
  simp only [entryHeader, escapeTrimmed_eq_nil_iff, dateRange_eq_nil_iff] at title organization dates
  simp [isBlank, isBlankString, title, organization, dates, details]

theorem Education.isBlank_of_isEmpty {e : Education} (header : e.entryHeader.IsEmpty)
    (activities : escapeTrimmed e.activities.toList = []) : e.isBlank = true := by
  obtain ⟨title, organization, dates⟩ := header
  simp only [entryHeader, escapeTrimmed_eq_nil_iff, dateRange_eq_nil_iff] at *
  simp [isBlank, isBlankString, title, organization, dates, activities]

/-! ## Entries -/

/-- The header that a style makes of the fields is a passage that shows one of them, if there is any. -/
structure HeaderFits (g : Dialect) (header : EntryHeader → Tex) (h : EntryHeader) : Prop where
  passage : Passage g (header h)
  shows : header h = [] → h.IsEmpty

structure ExperienceStyle.Fits (g : Dialect) (style : ExperienceStyle) : Prop where
  header : ∀ h : EntryHeader, h.Fits g → HeaderFits g style.header h
  listOpening : style.listOpening = opening "itemize"
  separator : Markup g style.separator

/-- The headers are those of the given entries, for a style may leave it to their fields whether a line
break is guarded. -/
structure EducationStyle.Fits (g : Dialect) (style : EducationStyle) (entries : List Education) :
    Prop where
  header : ∀ e ∈ entries, HeaderFits g style.header e.entryHeader
  activities : ∀ text, Markup g text → Passage g (style.activities text) ∧ style.activities text ≠ []
  separator : Markup g style.separator

theorem Experience.passage_render {style : ExperienceStyle} (fits : style.Fits g) (e : Experience)
    (visible : e.isBlank = false) : Passage g (render style e) ∧ render style e ≠ [] := by
  have header := fits.header e.entryHeader e.fits_entryHeader
  unfold render
  split
  · rename_i details
    refine ⟨header.passage, fun empty => ?_⟩
    have := isBlank_of_isEmpty (header.shows empty) (by simpa using details)
    rw [visible] at this
    cases this
  · have items : ∀ i ∈ e.details.map detailItem, IsItem g i := by
      simp only [List.mem_map, forall_exists_index, and_imp, forall_apply_eq_imp_iff₂]
      exact fun detail _ => isItem_detailItem detail
    have list : Markup g (environment "itemize" [] (join "\n" (e.details.map detailItem))) :=
      .environment (by decide) .nil (.items items)
    have entry := (header.passage.markup.append .line).append list
    rw [fits.listOpening]
    refine ⟨⟨?_, (solid_command "end" _).last.behind (command_ne_nil _ _) _⟩, ?_⟩
    · simpa only [environment, List.append_assoc, List.nil_append] using entry
    · simp [closing]

theorem Education.passage_render {style : EducationStyle} {entries : List Education}
    (fits : style.Fits g entries) {e : Education} (mem : e ∈ entries) (visible : e.isBlank = false) :
    Passage g (render style e) ∧ render style e ≠ [] := by
  have header := fits.header e mem
  unfold render
  simp only
  split
  · rename_i activities
    refine ⟨header.passage, fun empty => ?_⟩
    have := isBlank_of_isEmpty (header.shows empty) (by simpa using activities)
    rw [visible] at this
    cases this
  · obtain ⟨activities, ne⟩ := fits.activities _ (.escape (trim e.activities.toList))
    exact ⟨⟨(header.passage.markup.append .line).append activities.markup,
      activities.last.behind ne _⟩, by simp⟩

theorem Education.passage_entries {style : EducationStyle} {entries : List Education}
    (fits : style.Fits g entries) :
    ∀ q ∈ (entries.filter (!·.isBlank)).map (render style), Passage g q ∧ q ≠ [] := by
  simp only [List.mem_map, List.mem_filter, Bool.not_eq_true', forall_exists_index, and_imp]
  rintro _ e mem visible rfl
  exact passage_render fits mem visible

theorem Experience.passage_renderAll {style : ExperienceStyle} (fits : style.Fits g)
    (entries : List Experience) : Passage g (renderAll style entries) := by
  refine .join fits.separator ?_
  simp only [List.mem_map, List.mem_filter, Bool.not_eq_true', forall_exists_index, and_imp]
  rintro _ e - visible rfl
  exact passage_render fits e visible

theorem Education.passage_renderAll {style : EducationStyle} {entries : List Education}
    (fits : style.Fits g entries) : Passage g (renderAll style entries) :=
  .join fits.separator (passage_entries fits)

/-! ## Sections -/

structure SectionStyle.Fits (g : Dialect) (style : SectionStyle) (d : Document) : Prop where
  heading : ∀ key title, Markup g title → Block g (style.heading key title) ∧ Firm (style.heading key title)
  wrap : ∀ key body, Passage g body → body ≠ [] → Passage g (style.wrap key body) ∧ style.wrap key body ≠ []
  experience : style.experience.Fits g
  education : d.isHidden .education = false → style.education.Fits g d.education

namespace SectionStyle

variable {style : SectionStyle}

theorem Fits.block (fits : style.Fits g d) (key : Option SectionKey) {title body : Tex}
    (markup : Markup g title) (passage : Passage g body) (ne : body ≠ []) :
    Block g (style.block key title body) ∧ Firm (style.block key title body) := by
  obtain ⟨heading, firm⟩ := fits.heading key title markup
  obtain ⟨wrapped, wrappedNe⟩ := fits.wrap key body passage ne
  exact ⟨⟨(heading.markup.append .line).append wrapped.markup,
    heading.solid.around wrapped.last firm.ne_nil wrappedNe _⟩, (firm.append _).append _⟩

theorem Fits.body (fits : style.Fits g d) {key : SectionKey} (shown : d.isHidden key = false) :
    Passage g (style.body d key) := by
  cases key
  case experience => exact Experience.passage_renderAll fits.experience d.experience
  case education => exact Education.passage_renderAll (fits.education shown)
  all_goals exact (Block.format _ _ _).passage

theorem Fits.section? (fits : style.Fits g d) {key : SectionKey} {s : Tex}
    (h : style.section? d key = some s) : Block g s ∧ Firm s := by
  unfold SectionStyle.section? at h
  split at h
  · cases h
  · rename_i shown
    split at h
    · cases h
    · rename_i ne
      cases h
      exact fits.block _ (.escape _) (fits.body (by simpa using shown)) (by simpa using ne)

theorem Fits.custom? (fits : style.Fits g d) {c : CustomSection} {s : Tex}
    (h : style.custom? c = some s) : Block g s ∧ Firm s := by
  unfold SectionStyle.custom? at h
  simp only at h
  split at h
  · cases h
  · rename_i ne
    cases h
    simp only [Bool.or_eq_true, List.isEmpty_iff, not_or] at ne
    exact fits.block _ (.escape _) (Block.format _ _ _).passage ne.2

theorem Fits.mem_sections (fits : style.Fits g d) {keys : List SectionKey} :
    ∀ s ∈ keys.filterMap (style.section? d), Block g s ∧ Firm s := by
  simp only [List.mem_filterMap, forall_exists_index, and_imp]
  exact fun s key _ h => fits.section? h

theorem Fits.sections (fits : style.Fits g d) (keys : List SectionKey) :
    Block g (style.sections d keys) ∧ startsOption (style.sections d keys) = false :=
  ⟨.join (.text rfl) fun s mem => ⟨(fits.mem_sections s mem).1, (fits.mem_sections s mem).2.ne_nil⟩,
    startsOption_join fun s mem => (fits.mem_sections s mem).2⟩

theorem Fits.customSections (fits : style.Fits g d) (l : List CustomSection) :
    Block g (style.customSections l) := by
  refine .join (.text rfl) ?_
  simp only [List.mem_filterMap, forall_exists_index, and_imp]
  exact fun s c _ h => ⟨(fits.custom? h).1, (fits.custom? h).2.ne_nil⟩

end SectionStyle

end Vitae
