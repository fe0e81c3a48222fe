import Vitae.Document.Basic
import Vitae.Tex.Escape

namespace Vitae

open Text Tex

structure EntryHeader where
  title : Tex
  organization : Tex
  dates : Tex

structure ExperienceStyle where
  header : EntryHeader → Tex
  listOpening : Tex
  separator : Tex

structure EducationStyle where
  header : EntryHeader → Tex
  /-- What stands around the escaped activities, which are never empty. -/
  activities : Tex → Tex
  separator : Tex

def dateRange (start finish : List Char) : Tex :=
  joinPresent " -- " [escapeTrimmed start, escapeTrimmed finish]

/-- The line of one detail. Its blanks are kept. -/
def detailItem (detail : String) : Tex :=
  item (guardLineStart (escape detail.toList))

namespace Experience

def entryHeader (e : Experience) : EntryHeader where
  title := escapeTrimmed e.position.toList
  organization := escapeTrimmed e.company.toList
  dates := dateRange e.startDate.toList e.endDate.toList

def render (style : ExperienceStyle) (e : Experience) : Tex :=
  if e.details.isEmpty then style.header e.entryHeader
  else style.header e.entryHeader ++ "\n" ++ style.listOpening ++ "\n"
    ++ join "\n" (e.details.map detailItem) ++ "\n" ++ closing "itemize"

def renderAll (style : ExperienceStyle) (entries : List Experience) : Tex :=
  join style.separator ((entries.filter (!·.isBlank)).map (render style))

end Experience

namespace Education

def entryHeader (e : Education) : EntryHeader where
  title := escapeTrimmed e.degree.toList
  organization := escapeTrimmed e.institution.toList
  dates := dateRange e.startDate.toList e.endDate.toList

def render (style : EducationStyle) (e : Education) : Tex :=
  let activities := escapeTrimmed e.activities.toList
  if activities.isEmpty then style.header e.entryHeader
  else style.header e.entryHeader ++ "\n" ++ style.activities activities

def renderAll (style : EducationStyle) (entries : List Education) : Tex :=
  join style.separator ((entries.filter (!·.isBlank)).map (render style))

end Education

end Vitae
