import Vitae.Proofs.Layout.Masthead

namespace Vitae

open Text Tex

variable {g : Dialect} {s field : Tex}

/-! ## Fields in their markup -/

structure Shows (g : Dialect) (s field : Tex) : Prop where
  block : Block g s
  empty : s = [] → field = []

theorem Shows.self (h : Block g s) : Shows g s s :=
  ⟨h, id⟩

theorem Shows.styled {w : String} (mem : w ∈ g.commands) (h : Shows g s field) :
    Shows g (styled w s) field :=
  ⟨.styled mem h.block.markup, fun empty => h.empty (styled_eq_nil_iff.mp empty)⟩

theorem Shows.coloured {colour : String} (mem : "textcolor" ∈ g.commands)
    (plain : colour.toList.all isPlain = true) (h : Shows g s field) : Shows g (coloured colour s) field :=
  ⟨.coloured mem plain h.block.markup, fun empty => h.empty (coloured_eq_nil_iff.mp empty)⟩

theorem Shows.grouped {declarations : Tex} (markup : Markup g (declarations ++ " ")) (h : Shows g s field) :
    Shows g (grouped declarations s) field :=
  ⟨.grouped markup h.block.markup, fun empty => h.empty (grouped_eq_nil_iff.mp empty)⟩

/-! ## Headers of entries -/

theorem markup_hfill : Markup g (" " ++ control "hfill" ++ " ") :=
  .spaced (g.mem_sharedWords (by decide))

section

variable {header : EntryHeader → Tex} {h : EntryHeader} {separator title organization dates : Tex}

theorem HeaderFits.oneLine
    (eq : header h =
      joinPresent (" " ++ control "hfill" ++ " ") [joinPresent separator [title, organization], dates])
    (between : Markup g separator) (showsTitle : Shows g title h.title)
    (showsOrganization : Shows g organization h.organization) (showsDates : Shows g dates h.dates) :
    HeaderFits g header h := by
  have lead : Block g (joinPresent separator [title, organization]) :=
    .joinPresent between (forall_mem_pair showsTitle.block showsOrganization.block)
  have line := Block.joinPresent markup_hfill (forall_mem_pair lead showsDates.block)
  rw [← eq] at line
  refine ⟨line.passage, fun empty => ?_⟩
  simp only [eq, joinPresent_eq_nil_iff, List.forall_mem_cons, List.not_mem_nil, false_implies,
    implies_true, and_true] at empty
  exact ⟨showsTitle.empty empty.1.1, showsOrganization.empty empty.1.2, showsDates.empty empty.2⟩

theorem HeaderFits.twoLines
    (eq : header h =
      joinPresent "\\\\\n" [title, joinPresent (" " ++ control "hfill" ++ " ") [organization, dates]])
    (showsTitle : Shows g title h.title) (showsOrganization : Shows g organization h.organization)
    (showsDates : Shows g dates h.dates) (first : startsOption title = false)
    (second : g.guarded →
      startsOption (joinPresent (" " ++ control "hfill" ++ " ") [organization, dates]) = false) :
    HeaderFits g header h := by
  have line : Block g (joinPresent (" " ++ control "hfill" ++ " ") [organization, dates]) :=
    .joinPresent markup_hfill (forall_mem_pair showsOrganization.block showsDates.block)
  have lines := Block.joinPresentLines (forall_mem_pair showsTitle.block line) fun guarded =>
    forall_mem_pair first (second guarded)
  rw [← eq] at lines
  refine ⟨lines.passage, fun empty => ?_⟩
  simp only [eq, joinPresent_eq_nil_iff, List.forall_mem_cons, List.not_mem_nil, false_implies,
    implies_true, and_true] at empty
  exact ⟨showsTitle.empty empty.1, showsOrganization.empty empty.2.1, showsDates.empty empty.2.2⟩

end

theorem passage_par (mem : "par" ∈ g.commands) (h : Block g s) (stop : s.head?.any (!·.isAlpha) = true) :
    Passage g (control "par" ++ s) ∧ control "par" ++ s ≠ [] := by
  refine ⟨⟨.word mem h.markup stop, h.solid.last.behind ?_ _⟩, by simp [Tex.control]⟩
  rintro rfl
  cases stop

end Vitae
