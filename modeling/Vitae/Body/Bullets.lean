import Vitae.Text.Line
import Vitae.Text.Search
import Vitae.Tex.Escape

namespace Vitae.Body

open Text Tex

def bulletSigns : List Char :=
  ['•', '◦', '▪', '‣']

/-- The signs that mark an item only with a blank behind them. -/
def dashSigns : List Char :=
  ['-', '*', '–']

def stripMarker : List Char → List Char
  | [] => []
  | c :: s =>
    if bulletSigns.contains c then trimStart s
    else if dashSigns.contains c && (s.head?.any isBlank) then trimStart s
    else c :: s

def bulletLines (content : List Char) : List (List Char) :=
  (((trimmedLines content).filter (!·.isEmpty)).map stripMarker).filter (!·.isEmpty)

def bulletItem (line : List Char) : Tex :=
  item (guardLineStart (escape line))

def bulletList (content : List Char) : Tex :=
  itemize ((bulletLines content).map bulletItem)

theorem bulletList_eq_nil_iff {content : List Char} :
    bulletList content = [] ↔ bulletLines content = [] := by
  simp [bulletList, itemize_eq_nil_iff]

end Vitae.Body
