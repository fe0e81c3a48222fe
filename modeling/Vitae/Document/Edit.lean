import Vitae.Document.Basic

namespace Vitae

namespace Document

def setHeading (d : Document) (k : SectionKey) (text : String) : Document :=
  { d with headings := d.headings.insert k text }

def setHidden (d : Document) (k : SectionKey) (hidden : Bool) : Document :=
  { d with hidden := d.hidden.put k hidden }

def toggleHidden (d : Document) (k : SectionKey) : Document :=
  d.setHidden k (!d.isHidden k)

def toggleFieldType (d : Document) (k : SectionKey) (t : FieldType) : Bool × Document :=
  if k.isConfigurable && t.isToggleable then
    (true, { d with fieldTypes := d.fieldTypes.insert k ((d.fieldTypeSet k).toggle t) })
  else (false, d)

/-- Sets the links of a section. No entry is kept for an empty list. -/
def setLinks (d : Document) (k : SectionKey) (links : List Link) : Document :=
  { d with links := if links.isEmpty then d.links.erase k else d.links.insert k links }

end Document

/-! ## Lists of entries -/

def replaceAt {α : Type} (l : List α) (i : Nat) (a : α) : Bool × List α :=
  if i < l.length then (true, l.set i a) else (false, l)

def removeAt {α : Type} (l : List α) (i : Nat) : Option α × List α :=
  match l[i]? with
  | some a => (some a, l.eraseIdx i)
  | none => (none, l)

def moveTo {α : Type} (l : List α) (i j : Nat) : Bool × List α :=
  match l[i]? with
  | some a => if j < l.length then (true, (l.eraseIdx i).insertIdx j a) else (false, l)
  | none => (false, l)

namespace Document

def addExperience (d : Document) (e : Experience) : Document :=
  { d with experience := d.experience ++ [e] }

def updateExperience (d : Document) (i : Nat) (e : Experience) : Bool × Document :=
  let (done, l) := replaceAt d.experience i e
  (done, { d with experience := l })

def removeExperience (d : Document) (i : Nat) : Option Experience × Document :=
  let (removed, l) := removeAt d.experience i
  (removed, { d with experience := l })

def addEducation (d : Document) (e : Education) : Document :=
  { d with education := d.education ++ [e] }

def updateEducation (d : Document) (i : Nat) (e : Education) : Bool × Document :=
  let (done, l) := replaceAt d.education i e
  (done, { d with education := l })

def removeEducation (d : Document) (i : Nat) : Option Education × Document :=
  let (removed, l) := removeAt d.education i
  (removed, { d with education := l })

def addCustomSection (d : Document) (s : CustomSection) : Document :=
  { d with customSections := d.customSections ++ [s] }

def updateCustomSection (d : Document) (i : Nat) (s : CustomSection) : Bool × Document :=
  let (done, l) := replaceAt d.customSections i s
  (done, { d with customSections := l })

def removeCustomSection (d : Document) (i : Nat) : Option CustomSection × Document :=
  let (removed, l) := removeAt d.customSections i
  (removed, { d with customSections := l })

def moveCustomSection (d : Document) (i j : Nat) : Bool × Document :=
  let (done, l) := moveTo d.customSections i j
  (done, { d with customSections := l })

end Document

end Vitae
