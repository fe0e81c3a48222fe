import Vitae.Proofs.Body.Records
import Vitae.Proofs.Section.Visibility

namespace Vitae

open Text Tex

/-! ## Trimmed documents -/

def trimString (s : String) : String :=
  String.ofList (trim s.toList)

@[simp] theorem toList_trimString (s : String) : (trimString s).toList = trim s.toList :=
  String.toList_ofList

@[simp] theorem isBlankString_trimString (s : String) : isBlankString (trimString s) = isBlankString s := by
  rw [isBlankString, toList_trimString, allBlank_trim, isBlankString]

def Link.trimmed (l : Link) : Link where
  label := trimString l.label
  url := trimString l.url

def Experience.trimmed (e : Experience) : Experience where
  position := trimString e.position
  company := trimString e.company
  startDate := trimString e.startDate
  endDate := trimString e.endDate
  details := e.details

def Education.trimmed (e : Education) : Education where
  degree := trimString e.degree
  institution := trimString e.institution
  startDate := trimString e.startDate
  endDate := trimString e.endDate
  activities := trimString e.activities

def CustomSection.trimmed (s : CustomSection) : CustomSection where
  heading := trimString s.heading
  content := trimString s.content
  fieldTypes := s.fieldTypes
  links := s.links.map Link.trimmed

def Identity.trimmed (i : Identity) : Identity where
  name := trimString i.name
  title := trimString i.title
  subtitle := trimString i.subtitle
  phone := trimString i.phone
  email := trimString i.email
  location := trimString i.location
  portfolio := trimString i.portfolio
  social := trimString i.social

/-- The document without the blanks around what the user typed, details of positions apart. -/
def Document.trimmed (d : Document) : Document where
  identity := d.identity.trimmed
  summary := trimString d.summary
  football := trimString d.football
  achievements := trimString d.achievements
  skills := trimString d.skills
  portfolioContent := trimString d.portfolioContent
  personalAttributes := trimString d.personalAttributes
  languages := trimString d.languages
  references := trimString d.references
  experience := d.experience.map Experience.trimmed
  education := d.education.map Education.trimmed
  customSections := d.customSections.map CustomSection.trimmed
  headings := ⟨fun k => (d.headings.get? k).map trimString⟩
  hidden := d.hidden
  fieldTypes := d.fieldTypes
  links := ⟨fun k => (d.links.get? k).map (List.map Link.trimmed)⟩

/-! ## Texts and targets -/

@[simp] theorem escapeTrimmed_trim (s : List Char) : escapeTrimmed (trim s) = escapeTrimmed s := by
  rw [escapeTrimmed, trim_trim, escapeTrimmed]

@[simp] theorem clean_trim (s : List Char) : Target.clean (trim s) = Target.clean s := by
  rw [Target.clean, trim_trim, Target.clean]

@[simp] theorem url?_trim (s : List Char) : Target.url? (trim s) = Target.url? s := by
  rw [Target.url?, clean_trim, Target.url?]

@[simp] theorem mailto?_trim (s : List Char) : Target.mailto? (trim s) = Target.mailto? s := by
  rw [Target.mailto?, clean_trim, Target.mailto?]

/-! ## Bodies of sections -/

namespace Body

theorem linkItem?_trimmed (l : Link) : linkItem? l.trimmed = linkItem? l := by
  simp only [linkItem?, Link.trimmed, toList_trimString, trim_trim, url?_trim]

theorem linkList_trimmed (links : List Link) : linkList (links.map Link.trimmed) = linkList links := by
  simp only [linkList, List.filterMap_map, Function.comp_def, linkItem?_trimmed]

theorem bulletList_trim (content : List Char) : bulletList (trim content) = bulletList content := by
  have shown : (trimmedLines (trim content)).filter (!·.isEmpty) =
      (trimmedLines content).filter (!·.isEmpty) :=
    trimmedLines_trim (fun _ => rfl) (fun ls => by simp) content
  rw [bulletList, bulletLines, shown, bulletList, bulletLines]

theorem referenceBlocks_trim (text : List Char) : referenceBlocks (trim text) = referenceBlocks text := by
  have grouped : records (trim text) = records text :=
    trimmedLines_trim (fun _ => rfl) groupRecords_concat text
  rw [referenceBlocks, grouped, referenceBlocks]

theorem format_trim (content : List Char) (types : FieldTypes) (links : List Link) :
    format (trim content) types (links.map Link.trimmed) = format content types links := by
  simp only [format, textBody, linkBody, bulletList_trim, referenceBlocks_trim, escapeTrimmed_trim,
    linkList_trimmed]

end Body

/-! ## Dated entries -/

theorem Experience.renderAll_trimmed (style : ExperienceStyle) (l : List Experience) :
    renderAll style (l.map trimmed) = renderAll style l := by
  have blank (e : Experience) : e.trimmed.isBlank = e.isBlank := by
    simp [isBlank, trimmed]
  have header (e : Experience) : e.trimmed.entryHeader = e.entryHeader := by
    simp [entryHeader, trimmed, dateRange]
  have shown (e : Experience) : render style e.trimmed = render style e := by
    rw [render, header]
    rfl
  simp only [renderAll, List.filter_map, List.map_map, Function.comp_def, blank, shown]

theorem Education.renderAll_trimmed (style : EducationStyle) (l : List Education) :
    renderAll style (l.map trimmed) = renderAll style l := by
  have blank (e : Education) : e.trimmed.isBlank = e.isBlank := by
    simp [isBlank, trimmed]
  have header (e : Education) : e.trimmed.entryHeader = e.entryHeader := by
    simp [entryHeader, trimmed, dateRange]
  have activities (e : Education) :
      escapeTrimmed e.trimmed.activities.toList = escapeTrimmed e.activities.toList := by
    simp [trimmed]
  have shown (e : Education) : render style e.trimmed = render style e := by
    rw [render, header, activities, render]
  simp only [renderAll, List.filter_map, List.map_map, Function.comp_def, blank, shown]

/-! ## Sections -/

namespace Document

theorem content_trimmed (d : Document) (k : SectionKey) :
    (d.trimmed.content k).toList = trim (d.content k).toList := by
  cases k with
  | experience => rfl
  | education => rfl
  | _ => simp only [content, trimmed, toList_trimString]

@[simp] theorem get?_headings_trimmed (d : Document) (k : SectionKey) :
    d.trimmed.headings.get? k = (d.headings.get? k).map trimString :=
  rfl

@[simp] theorem get?_links_trimmed (d : Document) (k : SectionKey) :
    d.trimmed.links.get? k = (d.links.get? k).map (List.map Link.trimmed) :=
  rfl

theorem linkList_trimmed (d : Document) (k : SectionKey) :
    d.trimmed.linkList k = (d.linkList k).map Link.trimmed := by
  rw [linkList, get?_links_trimmed, linkList]
  cases d.links.get? k <;> rfl

theorem escapeTrimmed_heading_trimmed (d : Document) (k : SectionKey) :
    escapeTrimmed (d.trimmed.heading k).toList = escapeTrimmed (d.heading k).toList := by
  rw [heading, get?_headings_trimmed, heading]
  cases d.headings.get? k with
  | none => rfl
  | some h =>
    simp only [Option.map_some, Option.filter_some, isBlankString_trimString]
    split
    · rw [Option.getD_some, toList_trimString, escapeTrimmed_trim, Option.getD_some]
    · rfl

end Document

namespace SectionStyle

theorem body_trimmed (style : SectionStyle) (d : Document) (k : SectionKey) :
    style.body d.trimmed k = style.body d k := by
  have free : Body.format (d.trimmed.content k).toList (d.trimmed.fieldTypeSet k) (d.trimmed.linkList k) =
      Body.format (d.content k).toList (d.fieldTypeSet k) (d.linkList k) := by
    rw [Document.content_trimmed, Document.linkList_trimmed]
    exact Body.format_trim _ _ _
  cases k with
  | experience => exact Experience.renderAll_trimmed _ _
  | education => exact Education.renderAll_trimmed _ _
  | _ => exact free

theorem section?_trimmed (style : SectionStyle) (d : Document) (k : SectionKey) :
    style.section? d.trimmed k = style.section? d k := by
  have hidden : d.trimmed.isHidden k = d.isHidden k := rfl
  rw [section?, body_trimmed, hidden, d.escapeTrimmed_heading_trimmed, section?]

theorem customSections_trimmed (style : SectionStyle) (l : List CustomSection) :
    style.customSections (l.map CustomSection.trimmed) = style.customSections l := by
  have shown (s : CustomSection) : style.custom? s.trimmed = style.custom? s := by
    simp only [custom?, CustomSection.trimmed, toList_trimString, escapeTrimmed_trim, Body.format_trim]
  simp only [customSections, List.filterMap_map, Function.comp_def, shown]

end SectionStyle

/-! ## Sources -/

theorem Layout.Masthead.ofIdentity_trimmed (i : Identity) : ofIdentity i.trimmed = ofIdentity i := by
  simp only [ofIdentity, Identity.trimmed, toList_trimString, escapeTrimmed_trim, mailto?_trim, url?_trim]

/-- Blanks around what the user typed never matter. -/
theorem Layout.render_trimmed (l : Layout) (d : Document) : l.render d.trimmed = l.render d := by
  rw [render, render]
  congr 1
  exact body_congr l (Masthead.ofIdentity_trimmed d.identity) (l.style.customSections_trimmed _)
    (l.style.section?_trimmed d)

end Vitae
