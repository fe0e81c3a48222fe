import Vitae.Layout.Classic
import Vitae.Layout.Modern
import Vitae.Layout.Detailed
import Vitae.Layout.ExecutiveBlue
import Vitae.Layout.ExecutiveGray

namespace Vitae

inductive Layout where
  | classic
  | modern
  | detailed
  | executiveBlue
  | executiveGray
  deriving DecidableEq, Repr, Inhabited

structure UnknownLayout where
  id : String
  deriving DecidableEq, Repr

def UnknownLayout.message (e : UnknownLayout) : String :=
  "no such template: " ++ e.id

namespace Layout

def all : List Layout :=
  [.classic, .modern, .detailed, .executiveBlue, .executiveGray]

def id : Layout → String
  | .classic => "classic"
  | .modern => "modern"
  | .detailed => "detailed"
  | .executiveBlue => "executive1"
  | .executiveGray => "executive2"

def ofId (s : String) : Except UnknownLayout Layout :=
  match all.find? (·.id == s) with
  | some l => .ok l
  | none => .error ⟨s⟩

def displayName : Layout → String
  | .classic => "Classic Minimal"
  | .modern => "Modern Two Column"
  | .detailed => "Detailed Modern"
  | .executiveBlue => "Executive Pro V1"
  | .executiveGray => "Executive Pro V2"

def description : Layout → String
  | .classic => "Clean & Professional"
  | .modern => "Contemporary Layout"
  | .detailed => "Comprehensive"
  | .executiveBlue => "Blue Header Style"
  | .executiveGray => "Grayscale Professional"

def preamble : Layout → List Tex
  | .classic => Classic.preamble
  | .modern => Modern.preamble
  | .detailed => Detailed.preamble
  | .executiveBlue => ExecutiveBlue.preamble
  | .executiveGray => ExecutiveGray.preamble

def style : Layout → SectionStyle
  | .classic => Classic.style
  | .modern => Modern.style
  | .detailed => Detailed.style
  | .executiveBlue => ExecutiveBlue.style
  | .executiveGray => ExecutiveGray.style

def body : Layout → Document → Tex
  | .classic => Classic.body
  | .modern => Modern.body
  | .detailed => Detailed.body
  | .executiveBlue => ExecutiveBlue.body
  | .executiveGray => ExecutiveGray.body

def render (l : Layout) (d : Document) : Tex :=
  source l.preamble (l.body d)

theorem ofId_id (l : Layout) : ofId l.id = .ok l := by
  cases l <;> rfl

end Layout

def typeset (layoutId : String) (d : Document) : Except UnknownLayout String :=
  (Layout.ofId layoutId).map fun l => String.ofList (l.render d)

end Vitae
