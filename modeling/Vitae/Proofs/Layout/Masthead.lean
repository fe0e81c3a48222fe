import Vitae.Layout.Masthead
import Vitae.Proofs.Reading.Section

namespace Vitae.Layout

open Tex

variable {g : Dialect}

/-! ## Fields of an identity -/

structure Masthead.Fits (g : Dialect) (m : Masthead) : Prop where
  name : Markup g m.name
  title : Markup g m.title
  subtitle : Markup g m.subtitle
  phone : Markup g m.phone
  email : Markup g m.email
  location : Markup g m.location
  portfolio : Markup g m.portfolio
  social : Markup g m.social

theorem markup_linked {target : Option Tex} {text : Tex} (hard : ∀ t ∈ target, Target.Hardened t)
    (h : Markup g text) : Markup g (linked target text) := by
  cases target with
  | none => exact h
  | some t => exact .present fun _ => .href (hard t rfl) h.phrase

theorem markup_mail (address : List Char) :
    Markup g (linked (Target.mailto? address) (escapeTrimmed address)) :=
  markup_linked (fun _ mem => Target.hardened_mailto? mem) (.escape _)

theorem markup_page (address : List Char) :
    Markup g (linked (Target.url? address) (escapeTrimmed address)) :=
  markup_linked (fun _ mem => Target.hardened_url? mem) (.escape _)

theorem Masthead.fits_ofIdentity (i : Identity) : (ofIdentity i).Fits g := by
  constructor
  all_goals simp only [ofIdentity]
  case email => exact markup_mail _
  case portfolio | social => exact markup_page _
  all_goals exact .escape _

/-! ## Lines of a masthead -/

theorem markup_withIcon {icon : String} {value : Tex}
    (name : ∃ w ∈ sharedWords, icon = w ∨ icon = w ++ "*") (h : Markup g value) :
    Markup g (withIcon icon value) ∧ (withIcon icon value ≠ [] → Firm (withIcon icon value)) := by
  have behind : Markup g (control " " ++ value) := (Markup.symbol (by decide)).append h
  constructor
  · refine .present fun _ => ?_
    rw [List.append_assoc]
    obtain ⟨w, mem, rfl | rfl⟩ := name
    · exact .word (g.mem_sharedWords mem) behind rfl
    · have starred : Markup g ("*".toList ++ (control " " ++ value)) := (Markup.text rfl).append behind
      simpa [Tex.control] using Markup.word (g.mem_sharedWords mem) starred rfl
  · intro ne
    unfold withIcon present at ne ⊢
    split
    · simp_all
    · exact fun _ => rfl

namespace Masthead

variable {m : Masthead}

theorem Fits.headline (fits : m.Fits g) {titleMarkup : Tex → Tex}
    (h : ∀ t, Markup g t → Markup g (titleMarkup t)) : Markup g (m.headline titleMarkup) :=
  .joinPresent (.text rfl) (forall_mem_pair (.present fun _ => h _ fits.title) fits.subtitle)

theorem Fits.contactParts (fits : m.Fits g) :
    ∀ p ∈ m.contactParts, Markup g p ∧ (p ≠ [] → Firm p) := by
  simp only [Masthead.contactParts, reachParts, onlineParts, List.cons_append, List.nil_append,
    List.forall_mem_cons, List.not_mem_nil, false_implies, implies_true, and_true]
  exact ⟨markup_withIcon ⟨"faPhone", by decide, .inl rfl⟩ fits.phone,
    markup_withIcon ⟨"faEnvelope", by decide, .inl rfl⟩ fits.email,
    markup_withIcon ⟨"faMapMarker", by decide, .inr (by decide)⟩ fits.location,
    markup_withIcon ⟨"faGlobe", by decide, .inl rfl⟩ fits.portfolio,
    markup_withIcon ⟨"faLink", by decide, .inl rfl⟩ fits.social⟩

theorem Fits.contactLine (fits : m.Fits g) {parts : List Tex} (sub : parts ⊆ m.contactParts)
    (mem : "quad" ∈ g.commands) :
    Markup g (joinPresent (" " ++ control "quad" ++ " ") parts) :=
  .joinPresent (.spaced mem) fun p h => (fits.contactParts p (sub h)).1

theorem Fits.nameLine (fits : m.Fits g) {w : String} {declarations : Tex} (mem : w ∈ g.commands)
    (markup : Markup g (declarations ++ " ")) : Markup g (grouped declarations (styled w m.name)) :=
  (Block.grouped markup (Block.styled mem fits.name).markup).markup

theorem reachParts_subset : m.reachParts ⊆ m.contactParts :=
  List.subset_append_left _ _

theorem onlineParts_subset : m.onlineParts ⊆ m.contactParts :=
  List.subset_append_right _ _

theorem Fits.fourLines (fits : m.Fits g) {separator a b c : Tex} (between : Markup g separator)
    {w : String} (mem : w ∈ g.commands) (quad : "quad" ∈ g.commands) (ha : Markup g (a ++ " "))
    (hb : Markup g (b ++ " ")) (hc : Markup g (c ++ " ")) :
    Markup g (joinPresent separator
      [grouped a (styled w m.name), grouped b (m.headline fun t => t),
        grouped c (joinPresent (" " ++ control "quad" ++ " ") m.reachParts),
        grouped c (joinPresent (" " ++ control "quad" ++ " ") m.onlineParts)]) := by
  have reach := Block.grouped hc (fits.contactLine reachParts_subset quad)
  have online := Block.grouped hc (fits.contactLine onlineParts_subset quad)
  have headline := Block.grouped hb (fits.headline fun _ h => h)
  refine .joinPresent between ?_
  simp only [List.forall_mem_cons, List.not_mem_nil, false_implies, implies_true, and_true]
  exact ⟨fits.nameLine mem ha, headline.markup, reach.markup, online.markup⟩

end Masthead

/-! ## Headings -/

theorem sectionIcon_eq (key : Option SectionKey) : ∃ w ∈ sharedWords, sectionIcon key = control w := by
  cases key with
  | none => exact ⟨"faBookmark", by decide, rfl⟩
  | some key => cases key <;> exact ⟨_, by decide, rfl⟩

theorem block_starredHeading {title : Tex} (h : Markup g title) :
    Block g (command "section*" title) ∧ Firm (command "section*" title) :=
  ⟨.starred (g.mem_sharedWords (by decide : "section" ∈ sharedWords)) (by decide) h.phrase, fun _ => rfl⟩

theorem block_plainHeading (key : Option SectionKey) (title : Tex) (h : Markup g title) :
    Block g (plainHeading key title) ∧ Firm (plainHeading key title) :=
  block_starredHeading h

theorem block_iconHeading (key : Option SectionKey) (title : Tex) (h : Markup g title) :
    Block g (iconHeading key title) ∧ Firm (iconHeading key title) := by
  refine block_starredHeading ?_
  obtain ⟨w, mem, eq⟩ := sectionIcon_eq key
  rw [eq, List.append_assoc]
  exact .word (g.mem_sharedWords mem) ((Markup.symbol (by decide)).append h) rfl

end Vitae.Layout
