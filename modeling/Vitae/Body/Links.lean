import Vitae.Document.Basic
import Vitae.Tex.Escape
import Vitae.Tex.Target

namespace Vitae.Body

open Text Tex

def linkItem? (l : Link) : Option Tex :=
  let label := trim l.label.toList
  if label.isEmpty then none
  else (Target.url? l.url.toList).map fun target => item (Target.href target (escape label))

def linkList (links : List Link) : Tex :=
  itemize (links.filterMap linkItem?)

theorem linkList_eq_nil_iff {links : List Link} :
    linkList links = [] ↔ ∀ l ∈ links, linkItem? l = none := by
  simp [linkList, itemize_eq_nil_iff, List.filterMap_eq_nil_iff]

end Vitae.Body
