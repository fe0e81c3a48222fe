import Vitae.Layout.Catalogue
import Vitae.Proofs.Reading.Markup

namespace Vitae.Layout

open Tex

def identityBlock (l : Layout) (i : Identity) : Tex :=
  let m := Masthead.ofIdentity i
  match l with
  | .classic => Classic.header m
  | .modern => Modern.header m
  | .detailed =>
    Detailed.banner m ++ "\n\n" ++ opening "multicols" ++ braced "2" ++ "\n" ++ Detailed.contact m
  | .executiveBlue => ExecutiveBlue.header m
  | .executiveGray => ExecutiveGray.header m

def columns (left right : Tex) : Tex :=
  left ++ "\n\n" ++ control "columnbreak" ++ "\n\n" ++ right ++ "\n" ++ closing "multicols"

def below (l : Layout) (d : Document) : Tex :=
  let m := Masthead.ofIdentity d.identity
  let sections := l.style.sections d
  let custom := l.style.customSections d.customSections
  match l with
  | .classic => behind "\n\n" (Classic.header m) (joinPresent "\n\n" [sections Classic.order, custom])
  | .modern =>
    behind "\n\n" (Modern.header m) (opening "multicols" ++ braced "2" ++ "\n"
      ++ columns (sections Modern.left) (joinPresent "\n\n" [sections Modern.right, custom]))
  | .detailed =>
    columns (behind "\n\n" (Detailed.contact m) (sections Detailed.left))
      (joinPresent "\n\n" [sections Detailed.right, custom])
  | .executiveBlue =>
    behind "\n\n" (ExecutiveBlue.header m) (joinPresent "\n\n" [sections ExecutiveBlue.order, custom])
  | .executiveGray =>
    behind "\n\n" (ExecutiveGray.header m) (joinPresent "\n\n" [sections ExecutiveGray.lead,
      ExecutiveGray.sharedRow d, sections ExecutiveGray.tail, custom])

theorem body_eq (l : Layout) (d : Document) : l.body d = l.identityBlock d.identity ++ l.below d := by
  cases l with
  | classic => exact joinPresent_cons _ _ _
  | modern =>
    change joinPresent _ [_, _] = _
    rw [joinPresent_cons, joinPresent_singleton]
    simp only [environment, identityBlock, below, columns, List.append_assoc]
    rfl
  | detailed =>
    change Detailed.banner _ ++ _ ++ environment _ _ (joinPresent _ [_, _] ++ _ ++ _ ++ _ ++ _) = _
    rw [joinPresent_cons, joinPresent_singleton]
    simp only [environment, identityBlock, below, columns, List.append_assoc]
    rfl
  | executiveBlue => exact joinPresent_cons _ _ _
  | executiveGray => exact joinPresent_cons _ _ _

end Vitae.Layout
