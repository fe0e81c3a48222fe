import Vitae.SectionKey
import Vitae.Text.Line

namespace Vitae

open Text

def isBlankString (s : String) : Bool :=
  allBlank s.toList

structure Link where
  label : String := ""
  url : String := ""
  deriving DecidableEq, Repr, Inhabited

structure Experience where
  position : String := ""
  company : String := ""
  startDate : String := ""
  endDate : String := ""
  details : List String := []
  deriving DecidableEq, Repr, Inhabited

namespace Experience

def detailsText (e : Experience) : String :=
  String.ofList (joinLines (e.details.map String.toList))

def withDetailsText (e : Experience) (text : String) : Experience :=
  { e with details :=
      if text.toList.isEmpty then []
      else (splitLines text.toList).map fun l => String.ofList (dropReturns l) }

def isBlank (e : Experience) : Bool :=
  [e.position, e.company, e.startDate, e.endDate].all isBlankString && e.details.all isBlankString

end Experience

structure Education where
  degree : String := ""
  institution : String := ""
  startDate : String := ""
  endDate : String := ""
  activities : String := ""
  deriving DecidableEq, Repr, Inhabited

def Education.isBlank (e : Education) : Bool :=
  [e.degree, e.institution, e.startDate, e.endDate, e.activities].all isBlankString

structure CustomSection where
  heading : String := ""
  content : String := ""
  fieldTypes : FieldTypes := .only .paragraph
  links : List Link := []
  deriving DecidableEq, Repr, Inhabited

def CustomSection.toggleFieldType (s : CustomSection) (t : FieldType) : Bool × CustomSection :=
  if t.isToggleable then (true, { s with fieldTypes := s.fieldTypes.toggle t }) else (false, s)

structure Identity where
  name : String := ""
  title : String := ""
  subtitle : String := ""
  phone : String := ""
  email : String := ""
  location : String := ""
  portfolio : String := ""
  social : String := ""
  deriving DecidableEq, Repr, Inhabited

def Identity.fields (i : Identity) : List (String × String) :=
  [("name", i.name), ("title", i.title), ("subtitle", i.subtitle), ("phone", i.phone),
    ("email", i.email), ("location", i.location), ("portfolio", i.portfolio), ("social", i.social)]

structure Document where
  identity : Identity := {}
  summary : String := ""
  football : String := ""
  achievements : String := ""
  skills : String := ""
  portfolioContent : String := ""
  personalAttributes : String := ""
  languages : String := ""
  references : String := ""
  experience : List Experience := []
  education : List Education := []
  customSections : List CustomSection := []
  headings : SectionMap String := .empty
  hidden : SectionSet := .empty
  fieldTypes : SectionMap FieldTypes := .empty
  links : SectionMap (List Link) := .empty
  deriving DecidableEq, Repr, Inhabited

namespace Document

def heading (d : Document) (k : SectionKey) : String :=
  ((d.headings.get? k).filter (!isBlankString ·)).getD k.defaultHeading

def isHidden (d : Document) (k : SectionKey) : Bool :=
  d.hidden.contains k

/-- The field types in force for a section. Settings for a section of fixed form have no effect. -/
def fieldTypeSet (d : Document) (k : SectionKey) : FieldTypes :=
  if k.isConfigurable then (d.fieldTypes.get? k).getD k.defaultFieldTypes else k.defaultFieldTypes

def linkList (d : Document) (k : SectionKey) : List Link :=
  (d.links.get? k).getD []

def content (d : Document) : SectionKey → String
  | .summary => d.summary
  | .football => d.football
  | .achievements => d.achievements
  | .skills => d.skills
  | .portfolio => d.portfolioContent
  | .personalAttributes => d.personalAttributes
  | .languages => d.languages
  | .references => d.references
  | .experience | .education => ""

theorem heading_visible (d : Document) (k : SectionKey) : isBlankString (d.heading k) = false := by
  unfold heading
  cases set : (d.headings.get? k).filter (!isBlankString ·) with
  | none => cases k <;> rfl
  | some s => simpa using (Option.filter_eq_some_iff.mp set).2

end Document

end Vitae
