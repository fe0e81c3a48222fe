import Vitae.Proofs.Layout.Particulars

/-!
# Layouts show the identity

The identity block of every layout displays the particulars in one order, and so every source does, in front
of its sections.
-/

namespace Vitae.Layout

open Text Tex

variable {i : Identity}

/-! ## Lines of a masthead -/

theorem displays_headline {titleMarkup : Tex → Tex}
    (title : Displays i [.title] (present titleMarkup (Particular.title.drawn i))) :
    Displays i [.title, .subtitle] ((Masthead.ofIdentity i).headline titleMarkup) :=
  .pair (by decide) title (.drawn .subtitle)

theorem displays_plainHeadline :
    Displays i [.title, .subtitle] ((Masthead.ofIdentity i).headline fun t => t) := by
  apply displays_headline
  have same : present (fun t => t) (Particular.title.drawn i) = Particular.title.drawn i := by
    cases Particular.title.drawn i <;> rfl
  rw [same]
  exact .drawn .title

theorem displays_boldHeadline :
    Displays i [.title, .subtitle] ((Masthead.ofIdentity i).headline (command "textbf")) :=
  displays_headline ((Displays.drawn .title).styled (w := "textbf") (by decide))

theorem bare_quad : Bare (" " ++ control "quad" ++ " ") := by
  decide

theorem reachParts_eq (i : Identity) : (Masthead.ofIdentity i).reachParts =
    [Particular.phone, .email, .location].map (Particular.drawn i) := by
  simp only [Masthead.reachParts, Masthead.ofIdentity, List.map, Particular.drawn, Particular.icon?,
    Particular.target?, Particular.label, Particular.text, linked]

theorem onlineParts_eq (i : Identity) : (Masthead.ofIdentity i).onlineParts =
    [Particular.portfolio, .social].map (Particular.drawn i) := by
  simp only [Masthead.onlineParts, Masthead.ofIdentity, List.map, Particular.drawn, Particular.icon?,
    Particular.target?, Particular.label, Particular.text]

theorem displays_reach {separator : Tex} (between : Bare separator) :
    Displays i [.phone, .email, .location]
      (joinPresent separator (Masthead.ofIdentity i).reachParts) := by
  rw [reachParts_eq]
  exact .line between _

theorem displays_online {separator : Tex} (between : Bare separator) :
    Displays i [.portfolio, .social] (joinPresent separator (Masthead.ofIdentity i).onlineParts) := by
  rw [onlineParts_eq]
  exact .line between _

theorem displays_contacts {separator : Tex} (between : Bare separator) :
    Displays i [.phone, .email, .location, .portfolio, .social]
      (joinPresent separator (Masthead.ofIdentity i).contactParts) := by
  rw [Masthead.contactParts, reachParts_eq, onlineParts_eq, ← List.map_append]
  exact .line between _

theorem displays_nameLine {declarations : Tex} {w : String} (hd : Bare ('{' :: (declarations ++ " ")))
    (hw : Bare (control w ++ ['{'])) :
    Displays i [.name] (grouped declarations (styled w (Masthead.ofIdentity i).name)) :=
  ((Displays.drawn .name).styled hw).grouped hd

theorem displays_executiveLines {separator name headline small : Tex} (between : Bare separator)
    (hn : Bare ('{' :: (name ++ " "))) (hh : Bare ('{' :: (headline ++ " ")))
    (hs : Bare ('{' :: (small ++ " "))) :
    Displays i Particular.all (joinPresent separator
      (executiveLines (Masthead.ofIdentity i) name headline small)) := by
  have name := displays_nameLine (i := i) (w := "MakeUppercase") hn (by decide)
  have contacts := Displays.pair between ((displays_reach (i := i) bare_quad).grouped hs)
    ((displays_online bare_quad).grouped hs)
  exact .joinPresent_cons between name
    (.joinPresent_cons between (displays_plainHeadline.grouped hh) contacts)

/-! ## Identity blocks -/

theorem Classic.presents_header : Presents i Particular.all (header (.ofIdentity i)) := by
  have between : Bare (breakLine "2pt") := by decide
  have name : Displays i [.name]
      (grouped (control "large") (styled "textbf" (Masthead.ofIdentity i).name)) :=
    displays_nameLine (by decide) (by decide)
  have contacts := Displays.pair between (displays_reach (i := i) bare_quad) (displays_online bare_quad)
  have lines : Displays i Particular.all (joinPresent (breakLine "2pt")
      [grouped (control "large") (styled "textbf" (Masthead.ofIdentity i).name),
        (Masthead.ofIdentity i).headline (command "textbf"),
        joinPresent (" " ++ control "quad" ++ " ") (Masthead.ofIdentity i).reachParts,
        joinPresent (" " ++ control "quad" ++ " ") (Masthead.ofIdentity i).onlineParts]) :=
    .joinPresent_cons between name (.joinPresent_cons between displays_boldHeadline contacts)
  unfold header
  refine lines.toPresents.present
    (.append_bare (.append_bare (.environment ?_ ?_ lines.toPresents) ?_) ?_)
  all_goals decide

theorem Modern.presents_header : Presents i Particular.all (header (.ofIdentity i)) := by
  have between : Bare (breakLine "4pt") := by decide
  have name : Displays i [.name] (grouped
      (control "Huge" ++ control "bfseries" ++ command "color" "darkblue")
      (styled "MakeUppercase" (Masthead.ofIdentity i).name)) :=
    displays_nameLine (by decide) (by decide)
  have headline : Displays i [.title, .subtitle] (grouped
      (control "large" ++ command "color" "primaryblue")
      ((Masthead.ofIdentity i).headline (command "textbf"))) :=
    displays_boldHeadline.grouped (by decide)
  have contacts : Displays i [.phone, .email, .location, .portfolio, .social] (grouped (control "small")
      (joinPresent (" " ++ control "quad" ++ " ") (Masthead.ofIdentity i).contactParts)) :=
    (displays_contacts bare_quad).grouped (by decide)
  have lines := Displays.joinPresent_cons between name (.pair between headline contacts)
  unfold header
  refine lines.toPresents.present (.environment ?_ ?_ lines.toPresents)
  all_goals decide

theorem Detailed.presents_banner : Presents i [.name, .title, .subtitle] (banner (.ofIdentity i)) := by
  unfold banner
  extract_lets lines picture
  have shown : Displays i [.name, .title, .subtitle] lines :=
    .pair (by decide) (displays_nameLine (by decide) (by decide))
      (displays_plainHeadline.grouped (by decide))
  have drawn : Presents i [.name, .title, .subtitle] picture := by
    refine .append_bare (.bare_append ?_ (.braced (.environment ?_ ?_ shown.toPresents)
      (closes_environment _ _ _))) ?_
    all_goals decide +kernel
  refine .append_bare (.append_bare (.environment ?_ ?_ drawn) ?_) ?_
  all_goals decide

theorem Detailed.presents_contact :
    Presents i [.phone, .email, .location, .portfolio, .social] (contact (.ofIdentity i)) := by
  have lines : Displays i [.phone, .email, .location, .portfolio, .social]
      (joinPresent "\\\\\n" (Masthead.ofIdentity i).contactParts) :=
    displays_contacts (by decide)
  have closes (s : Tex) : Closes (s ++ "\n") := closes_of_last (by decide) (by decide)
  unfold contact
  refine lines.toPresents.present
    (.bare_append ?_ (.braced (.append_bare (.bare_append ?_ lines.toPresents) ?_) (closes _)))
  all_goals decide

theorem ExecutiveBlue.presents_header : Presents i Particular.all (header (.ofIdentity i)) := by
  rw [header_eq]
  refine .append_bare (.environment ?_ ?_ (displays_executiveLines ?_ ?_ ?_ ?_).toPresents) ?_
  all_goals decide +kernel

theorem ExecutiveGray.presents_header : Presents i Particular.all (header (.ofIdentity i)) := by
  rw [header_eq]
  refine .append_bare (.environment ?_ ?_ (displays_executiveLines ?_ ?_ ?_ ?_).toPresents) ?_
  all_goals decide

theorem presents_identityBlock (l : Layout) (i : Identity) :
    Presents i Particular.all (l.identityBlock i) := by
  cases l with
  | classic => exact Classic.presents_header
  | modern => exact Modern.presents_header
  | detailed =>
    have banner : Presents i [.name, .title, .subtitle]
        (Detailed.banner (.ofIdentity i) ++ ("\n\n" ++ opening "multicols" ++ braced "2" ++ "\n")) :=
      Detailed.presents_banner.append_bare (by decide)
    have block := banner.append Detailed.presents_contact
    simp only [identityBlock, List.append_assoc] at block ⊢
    exact block
  | executiveBlue => exact ExecutiveBlue.presents_header
  | executiveGray => exact ExecutiveGray.presents_header

/-! ## The identity in a source -/

theorem ofIdentity_blank (blank : ∀ p, Particular.isBlank i p = true) :
    Masthead.ofIdentity i = ⟨[], [], [], [], [], [], [], []⟩ := by
  have label (p : Particular) : p.label i = [] := escapeTrimmed_eq_nil_iff.mpr (blank p)
  have link (p : Particular) : linked (p.target? i) (p.label i) = [] := linked_eq_nil_iff.mpr (label p)
  rw [Masthead.ofIdentity, Masthead.mk.injEq]
  exact ⟨label .name, label .title, label .subtitle, label .phone, link .email, label .location,
    link .portfolio, link .social⟩

theorem lacks_of_blank (blank : ∀ p, Particular.isBlank i p = true) (l : Layout) :
    lacks lineBreak (l.identityBlock i) = true ∧ lacks (control "quad") (l.identityBlock i) = true := by
  unfold identityBlock
  rw [ofIdentity_blank blank]
  cases l <;> decide +kernel

theorem identifies_identityBlock (l : Layout) (i : Identity) : Identifies i (l.identityBlock i) := by
  have ⟨order, carries⟩ := presents_identityBlock l i
  refine ⟨order, ?_, fun p blank w icon => ?_, fun w ne letters => carries.filled.not_command letters ne,
    fun a b cut => Filled.emptyGroup (b := b) (cut ▸ carries.filled), carries.filled.not_group,
    fun blank => ?_⟩
  · have links := carries.links []
    rwa [List.append_nil, cutTargets_nil, List.append_nil] at links
  · refine not_infix_of_lacks (carries.others w ?_ fun mem => ?_) (by simp [Tex.control])
    · exact List.mem_filterMap.mpr ⟨p, p.mem_all, icon⟩
    · obtain ⟨q, memQ, iconQ⟩ := List.mem_filterMap.mp mem
      have visible := (List.mem_filter.mp memQ).2
      rw [← Particular.eq_of_icon icon iconQ, blank] at visible
      cases visible
  · obtain ⟨breaks, quads⟩ := lacks_of_blank blank l
    exact ⟨not_infix_of_lacks breaks (by decide), not_infix_of_lacks quads (by decide)⟩

/-- Every source shows the identity in a block of its own, which is made of nothing but the identity. All
sections of the document stand behind the block, and the one that may start in it lists the ways of
contact. -/
theorem identity_render (l : Layout) (d : Document) :
    (∃ hs rest, l.render d =
          l.preface ++ opening "document" ++ "\n\n" ++ l.identityBlock d.identity ++ rest ∧
        headings (l.render d) = hs ++ headings rest ∧
        List.Forall₂ (fun h b => b <+: h) hs (l.contactBlocks d.identity) ∧
        List.Forall₂ (fun h b => b <+: h) (headings rest) (l.sectionBlocks d)) ∧
      Identifies d.identity (l.identityBlock d.identity) := by
  refine ⟨?_, identifies_identityBlock l d.identity⟩
  have front := (composed_start l d.identity).headed (smooth_extraSpace l)
  have back := (composed_remainder l d).headed (smooth_extraSpace l)
  obtain ⟨hs, cut, starts⟩ := front (l.remainder d)
  rw [render_eq_start_append]
  exact ⟨hs, l.remainder d, rfl, cut, starts, back.starts⟩

end Vitae.Layout
