import Vitae.Body.Format
import Vitae.Entry

namespace Vitae

open Text Tex

structure SectionStyle where
  heading : Option SectionKey → Tex → Tex
  /-- What stands around a body, which is never empty. -/
  wrap : Option SectionKey → Tex → Tex
  experience : ExperienceStyle
  education : EducationStyle

namespace SectionStyle

def block (style : SectionStyle) (key : Option SectionKey) (title body : Tex) : Tex :=
  style.heading key title ++ "\n" ++ style.wrap key body

def body (style : SectionStyle) (d : Document) : SectionKey → Tex
  | .experience => Experience.renderAll style.experience d.experience
  | .education => Education.renderAll style.education d.education
  | key => Body.format (d.content key).toList (d.fieldTypeSet key) (d.linkList key)

def section? (style : SectionStyle) (d : Document) (key : SectionKey) : Option Tex :=
  if d.isHidden key then none
  else if (style.body d key).isEmpty then none
  else some (style.block (some key) (escapeTrimmed (d.heading key).toList) (style.body d key))

def sections (style : SectionStyle) (d : Document) (keys : List SectionKey) : Tex :=
  join "\n\n" (keys.filterMap (style.section? d))

def custom? (style : SectionStyle) (s : CustomSection) : Option Tex :=
  let title := escapeTrimmed s.heading.toList
  let body := Body.format s.content.toList s.fieldTypes s.links
  if title.isEmpty || body.isEmpty then none else some (style.block none title body)

def customSections (style : SectionStyle) (l : List CustomSection) : Tex :=
  join "\n\n" (l.filterMap style.custom?)

end SectionStyle

end Vitae
