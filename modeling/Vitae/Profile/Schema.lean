import Vitae.Document.Basic
import Vitae.Profile.Shape

namespace Vitae.Profile

def Shape.fieldTypes : Shape FieldTypes :=
  .mapped (.list (.choice FieldType.all FieldType.name)) FieldTypes.ofList FieldTypes.toList

def Shape.sectionSet : Shape SectionSet :=
  .mapped (.list (.choice SectionKey.all SectionKey.name)) SectionSet.ofList SectionSet.toList

/-- Values by section; of two for one section the last counts. -/
def Shape.sectionMap {α : Type} (item : Shape α) : Shape (SectionMap α) :=
  .mapped (.keyed SectionKey.all SectionKey.name item) SectionMap.ofList SectionMap.toList

def linkFields : Fields Link :=
  .cons "label" .text Link.label (fun l s => { l with label := s }) <|
  .cons "url" .text Link.url (fun l s => { l with url := s })
  .nil

def Shape.link : Shape Link :=
  .record "LinkEntry" false {} linkFields

def experienceFields : Fields Experience :=
  .cons "position" .text Experience.position (fun e s => { e with position := s }) <|
  .cons "company" .text Experience.company (fun e s => { e with company := s }) <|
  .cons "startDate" .text Experience.startDate (fun e s => { e with startDate := s }) <|
  .cons "endDate" .text Experience.endDate (fun e s => { e with endDate := s }) <|
  .cons "details" (.list .text) Experience.details (fun e l => { e with details := l })
  .nil

def Shape.experience : Shape Experience :=
  .record "ExperienceEntry" false {} experienceFields

def educationFields : Fields Education :=
  .cons "degree" .text Education.degree (fun e s => { e with degree := s }) <|
  .cons "institution" .text Education.institution (fun e s => { e with institution := s }) <|
  .cons "startDate" .text Education.startDate (fun e s => { e with startDate := s }) <|
  .cons "endDate" .text Education.endDate (fun e s => { e with endDate := s }) <|
  .cons "activities" .text Education.activities (fun e s => { e with activities := s })
  .nil

def Shape.education : Shape Education :=
  .record "EducationEntry" false {} educationFields

def customSectionFields : Fields CustomSection :=
  .cons "heading" .text CustomSection.heading (fun c s => { c with heading := s }) <|
  .cons "content" .text CustomSection.content (fun c s => { c with content := s }) <|
  .cons "fieldTypes" .fieldTypes CustomSection.fieldTypes (fun c t => { c with fieldTypes := t }) <|
  .cons "links" (.list .link) CustomSection.links (fun c l => { c with links := l })
  .nil

def Shape.customSection : Shape CustomSection :=
  .record "CustomSection" false {} customSectionFields

def settingFields : Fields Document :=
  .cons "sectionHeadings" (.sectionMap .text) Document.headings
    (fun d m => { d with headings := m }) <|
  .cons "hiddenSections" .sectionSet Document.hidden (fun d s => { d with hidden := s }) <|
  .cons "sectionFieldTypes" (.sectionMap .fieldTypes) Document.fieldTypes
    (fun d m => { d with fieldTypes := m }) <|
  .cons "sectionLinks" (.sectionMap (.list .link)) Document.links (fun d m => { d with links := m })
  .nil

def entryFields : Fields Document :=
  .cons "experience" (.list .experience) Document.experience
    (fun d l => { d with experience := l }) <|
  .cons "education" (.list .education) Document.education (fun d l => { d with education := l }) <|
  .cons "customSections" (.list .customSection) Document.customSections
    (fun d l => { d with customSections := l })
  settingFields

def contentFields : Fields Document :=
  .cons "summary" .text Document.summary (fun d s => { d with summary := s }) <|
  .cons "football" .text Document.football (fun d s => { d with football := s }) <|
  .cons "achievements" .text Document.achievements (fun d s => { d with achievements := s }) <|
  .cons "skills" .text Document.skills (fun d s => { d with skills := s }) <|
  .cons "portfolioContent" .text Document.portfolioContent
    (fun d s => { d with portfolioContent := s }) <|
  .cons "personalAttributes" .text Document.personalAttributes
    (fun d s => { d with personalAttributes := s }) <|
  .cons "languages" .text Document.languages (fun d s => { d with languages := s }) <|
  .cons "references" .text Document.references (fun d s => { d with references := s })
  entryFields

def documentFields : Fields Document :=
  .cons "name" .text (·.identity.name) (fun d s => { d with identity.name := s }) <|
  .cons "title" .text (·.identity.title) (fun d s => { d with identity.title := s }) <|
  .cons "subtitle" .text (·.identity.subtitle) (fun d s => { d with identity.subtitle := s }) <|
  .cons "phone" .text (·.identity.phone) (fun d s => { d with identity.phone := s }) <|
  .cons "email" .text (·.identity.email) (fun d s => { d with identity.email := s }) <|
  .cons "location" .text (·.identity.location) (fun d s => { d with identity.location := s }) <|
  .cons "portfolio" .text (·.identity.portfolio) (fun d s => { d with identity.portfolio := s }) <|
  .cons "social" .text (·.identity.social) (fun d s => { d with identity.social := s })
  contentFields

def Shape.document : Shape Document :=
  .record "ResumeDocument" true {} documentFields

end Vitae.Profile
