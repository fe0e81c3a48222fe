import Vitae.Document.Edit
import Vitae.Layout.Catalogue

/-!
# What a source can show

A source depends on a document only through what the document shows: its identity, its custom sections, and
of each section that is not hidden the heading, the field types and the body in force. Two documents that
look alike in this sense have one source, and a hidden section is as good as an empty one.
-/

namespace Vitae

open Text Tex

namespace Document

structure SameSection (d e : Document) (k : SectionKey) : Prop where
  heading : d.heading k = e.heading k
  fieldTypes : d.fieldTypeSet k = e.fieldTypeSet k
  content : d.content k = e.content k
  experience : k = .experience → d.experience = e.experience
  education : k = .education → d.education = e.education
  links : (d.fieldTypeSet k).contains .hyperlink = true → d.linkList k = e.linkList k

structure LooksLike (d e : Document) : Prop where
  identity : d.identity = e.identity
  hidden : d.hidden = e.hidden
  customSections : d.customSections = e.customSections
  shown : ∀ k, d.isHidden k = false → d.SameSection e k

def emptied (d : Document) (k : SectionKey) : Document :=
  let d := d.setLinks k []
  match k with
  | .summary => { d with summary := "" }
  | .football => { d with football := "" }
  | .experience => { d with experience := [] }
  | .education => { d with education := [] }
  | .achievements => { d with achievements := "" }
  | .skills => { d with skills := "" }
  | .portfolio => { d with portfolioContent := "" }
  | .personalAttributes => { d with personalAttributes := "" }
  | .languages => { d with languages := "" }
  | .references => { d with references := "" }

variable {d : Document} {k : SectionKey}

/-! ## Emptied sections -/

theorem emptied_settings (d : Document) (k : SectionKey) :
    (d.emptied k).identity = d.identity ∧ (d.emptied k).hidden = d.hidden ∧
      (d.emptied k).customSections = d.customSections ∧ (d.emptied k).headings = d.headings ∧
      (d.emptied k).fieldTypes = d.fieldTypes := by
  cases k <;> exact ⟨rfl, rfl, rfl, rfl, rfl⟩

theorem linkList_emptied (d : Document) (k : SectionKey) : (d.emptied k).linkList k = [] := by
  have links : (d.emptied k).links = d.links.erase k := by
    cases k <;> rfl
  rw [linkList, links, SectionMap.get?_erase, if_pos rfl]
  rfl

theorem content_emptied (d : Document) (k : SectionKey) : (d.emptied k).content k = "" := by
  cases k <;> rfl

theorem sameSection_emptied (d : Document) {j : SectionKey} (ne : j ≠ k) :
    d.SameSection (d.emptied k) j where
  heading := by rw [heading, heading, (emptied_settings d k).2.2.2.1]
  fieldTypes := by rw [fieldTypeSet, fieldTypeSet, (emptied_settings d k).2.2.2.2]
  content := by cases k <;> cases j <;> first | rfl | exact absurd rfl ne
  experience := by
    rintro rfl
    cases k <;> first | rfl | exact absurd rfl ne
  education := by
    rintro rfl
    cases k <;> first | rfl | exact absurd rfl ne
  links := by
    intro
    have links : (d.emptied k).links = d.links.erase k := by
      cases k <;> rfl
    rw [linkList, linkList, links, SectionMap.get?_erase, if_neg ne]

/-! ## Settings without effect -/

theorem linkList_setLinks_of_ne (d : Document) {j : SectionKey} (links : List Link) (ne : j ≠ k) :
    (d.setLinks k links).linkList j = d.linkList j := by
  unfold linkList setLinks
  dsimp only
  split
  · rw [SectionMap.get?_erase, if_neg ne]
  · rw [SectionMap.get?_insert, if_neg ne]

theorem not_contains_hyperlink_of_fixed (d : Document) (fixed : k.isConfigurable = false) :
    (d.fieldTypeSet k).contains .hyperlink = false := by
  rw [fieldTypeSet, if_neg (fixed ▸ Bool.false_ne_true)]
  cases k <;> rfl

theorem looksLike_setLinks (d : Document) (links : List Link)
    (unlinked : (d.fieldTypeSet k).contains .hyperlink = false) : (d.setLinks k links).LooksLike d where
  identity := rfl
  hidden := rfl
  customSections := rfl
  shown j _ :=
    { heading := rfl
      fieldTypes := rfl
      content := by cases j <;> rfl
      experience := fun _ => rfl
      education := fun _ => rfl
      links := by
        intro linked
        by_cases same : j = k
        · subst same
          exact absurd (linked.symm.trans unlinked) Bool.noConfusion
        · exact linkList_setLinks_of_ne d links same }

theorem looksLike_storeFieldTypes (d : Document) (types : FieldTypes) (fixed : k.isConfigurable = false) :
    LooksLike { d with fieldTypes := d.fieldTypes.insert k types } d where
  identity := rfl
  hidden := rfl
  customSections := rfl
  shown j _ :=
    { heading := rfl
      fieldTypes := by
        rw [fieldTypeSet, fieldTypeSet]
        by_cases same : j = k
        · rw [same, fixed]
          rfl
        · rw [SectionMap.get?_insert, if_neg same]
      content := by cases j <;> rfl
      experience := fun _ => rfl
      education := fun _ => rfl
      links := fun _ => rfl }

end Document

/-! ## Bodies of sections -/

theorem Body.format_congr (content : List Char) (types : FieldTypes) {links others : List Link}
    (same : types.contains .hyperlink = true → links = others) :
    Body.format content types links = Body.format content types others := by
  have linkBody : Body.linkBody types links = Body.linkBody types others := by
    unfold Body.linkBody
    split
    · case isTrue shown => rw [same shown]
    · case isFalse => rfl
  rw [Body.format, Body.format, linkBody]

theorem Body.format_empty (types : FieldTypes) : Body.format [] types [] = [] := by
  have text : Body.textBody [] types = [] := by
    unfold Body.textBody
    split
    · rfl
    · split <;> rfl
  have links : Body.linkBody types [] = [] := by
    unfold Body.linkBody
    split <;> rfl
  rw [Body.format, text, links]
  rfl

namespace SectionStyle

variable {d e : Document} {k : SectionKey}

theorem body_congr (style : SectionStyle) (same : d.SameSection e k) :
    style.body d k = style.body e k := by
  have free : Body.format (d.content k).toList (d.fieldTypeSet k) (d.linkList k)
      = Body.format (e.content k).toList (e.fieldTypeSet k) (e.linkList k) := by
    rw [← same.content, ← same.fieldTypes]
    exact Body.format_congr _ _ same.links
  cases k with
  | experience => rw [body, body, same.experience rfl]
  | education => rw [body, body, same.education rfl]
  | _ => exact free

theorem body_emptied (style : SectionStyle) (d : Document) (k : SectionKey) :
    style.body (d.emptied k) k = [] := by
  have free : Body.format ((d.emptied k).content k).toList ((d.emptied k).fieldTypeSet k)
      ((d.emptied k).linkList k) = [] := by
    rw [Document.content_emptied, Document.linkList_emptied]
    exact Body.format_empty _
  cases k with
  | experience => rfl
  | education => rfl
  | _ => exact free

theorem section?_hidden (style : SectionStyle) (hidden : d.isHidden k = true) :
    style.section? d k = none := by
  rw [section?, if_pos hidden]

theorem section?_empty (style : SectionStyle) (empty : style.body d k = []) :
    style.section? d k = none := by
  rw [section?, empty]
  exact ite_self none

theorem section?_congr (style : SectionStyle) (hidden : d.isHidden k = e.isHidden k)
    (same : d.isHidden k = false → d.SameSection e k) : style.section? d k = style.section? e k := by
  cases shown : d.isHidden k with
  | true => rw [section?_hidden style shown, section?_hidden style (hidden ▸ shown)]
  | false =>
    have same := same shown
    rw [section?, section?, ← hidden, ← body_congr style same, ← same.heading]

end SectionStyle

/-! ## Sources -/

namespace Layout

variable {d e : Document}

theorem body_congr (l : Layout) (identity : Masthead.ofIdentity d.identity = .ofIdentity e.identity)
    (custom : l.style.customSections d.customSections = l.style.customSections e.customSections)
    (shown : ∀ k, l.style.section? d k = l.style.section? e k) : l.body d = l.body e := by
  have columns (keys : List SectionKey) : l.style.sections d keys = l.style.sections e keys := by
    rw [SectionStyle.sections, SectionStyle.sections, funext shown]
  cases l <;> simp only [style] at custom shown columns
  · case classic =>
    change Classic.body d = Classic.body e
    rw [Classic.body, Classic.body, columns, identity, custom]
  · case modern =>
    change Modern.body d = Modern.body e
    rw [Modern.body, Modern.body, columns, columns, identity, custom]
  · case detailed =>
    change Detailed.body d = Detailed.body e
    simp only [Detailed.body, columns, identity, custom]
  · case executiveBlue =>
    change ExecutiveBlue.body d = ExecutiveBlue.body e
    rw [ExecutiveBlue.body, ExecutiveBlue.body, columns, identity, custom]
  · case executiveGray =>
    have row : ExecutiveGray.sharedRow d = ExecutiveGray.sharedRow e := by
      rw [ExecutiveGray.sharedRow, ExecutiveGray.sharedRow, shown, shown]
    change ExecutiveGray.body d = ExecutiveGray.body e
    rw [ExecutiveGray.body, ExecutiveGray.body, columns, columns, row, identity, custom]

theorem render_congr (l : Layout) (alike : d.LooksLike e) : l.render d = l.render e := by
  rw [render, render]
  congr 1
  apply body_congr l (congrArg _ alike.identity) (congrArg _ alike.customSections)
  intro k
  apply SectionStyle.section?_congr
  · rw [Document.isHidden, Document.isHidden, alike.hidden]
  · exact alike.shown k

theorem render_setHidden (l : Layout) (d : Document) (k : SectionKey) :
    l.render (d.setHidden k true) = l.render ((d.setHidden k false).emptied k) := by
  obtain ⟨identity, hidden, custom, -, -⟩ := Document.emptied_settings (d.setHidden k false) k
  rw [render, render]
  congr 1
  apply body_congr (d := d.setHidden k true) l (congrArg _ identity.symm) (congrArg _ custom.symm)
  intro j
  by_cases same : j = k
  · subst same
    have absent : (d.setHidden j true).isHidden j = true := if_pos rfl
    rw [SectionStyle.section?_hidden _ absent,
      SectionStyle.section?_empty _ (SectionStyle.body_emptied l.style (d.setHidden j false) j)]
  · have untouched (b : Bool) : (d.setHidden k b).isHidden j = d.isHidden j := if_neg same
    have kept : ((d.setHidden k false).emptied k).isHidden j = (d.setHidden k false).isHidden j := by
      rw [Document.isHidden, Document.isHidden, hidden]
    apply SectionStyle.section?_congr
    · rw [untouched, kept, untouched]
    · intro
      have other := Document.sameSection_emptied (k := k) (d.setHidden k false) same
      exact ⟨other.heading, other.fieldTypes, other.content, other.experience, other.education, other.links⟩

/-- The source depends on nothing but what is shown. Links without the field type for them are not
shown, nor are the settings of a section of fixed form, and to hide a section is to show it empty. -/
theorem noninterference_render :
    (∀ (l : Layout) (d e : Document), d.LooksLike e → l.render d = l.render e) ∧
      (∀ (l : Layout) (d : Document) (k : SectionKey) (links : List Link),
        (d.fieldTypeSet k).contains .hyperlink = false → l.render (d.setLinks k links) = l.render d) ∧
      (∀ (l : Layout) (d : Document) (k : SectionKey) (types : FieldTypes) (links : List Link),
        k.isConfigurable = false →
          l.render { d.setLinks k links with fieldTypes := d.fieldTypes.insert k types } = l.render d) ∧
      ∀ (l : Layout) (d : Document) (k : SectionKey),
        l.render (d.setHidden k true) = l.render ((d.setHidden k false).emptied k) := by
  refine ⟨fun l d e => render_congr l, ?_, ?_, render_setHidden⟩
  · intro l d k links unlinked
    exact render_congr l (d.looksLike_setLinks links unlinked)
  · intro l d k types links fixed
    have unlinked := d.not_contains_hyperlink_of_fixed fixed
    calc l.render { d.setLinks k links with fieldTypes := d.fieldTypes.insert k types }
        = l.render (d.setLinks k links) :=
          render_congr l ((d.setLinks k links).looksLike_storeFieldTypes types fixed)
      _ = l.render d := render_congr l (d.looksLike_setLinks links unlinked)

theorem noninterference_render_hiddenSummary :
    let d : Document :=
      ({ identity := { name := "Ada" }, football := "x" } : Document).setHidden .summary true
    let e : Document := ({ d with summary := "secret" }).setHeading .summary "Secret"
    d.LooksLike e ∧ Layout.modern.render d = Layout.modern.render e ∧
      (d.fieldTypeSet .football).contains .hyperlink = false ∧
      Layout.modern.render (d.setLinks .football [⟨"a", "b"⟩]) = Layout.modern.render d ∧
      SectionKey.experience.isConfigurable = false ∧
      Layout.modern.render { d.setLinks .experience [⟨"a", "b"⟩] with
          fieldTypes := d.fieldTypes.insert .experience (.only .hyperlink) } = Layout.modern.render d := by
  intro d e
  have alike : d.LooksLike e :=
    { identity := rfl
      hidden := rfl
      customSections := rfl
      shown := by
        intro k shown
        cases k with
        | summary => cases shown
        | _ => exact ⟨rfl, rfl, rfl, fun _ => rfl, fun _ => rfl, fun _ => rfl⟩ }
  have unlinked : (d.fieldTypeSet .football).contains .hyperlink = false :=
    FieldTypes.contains_only .paragraph .hyperlink
  exact ⟨alike, noninterference_render.1 .modern d e alike, unlinked,
    noninterference_render.2.1 .modern d .football [⟨"a", "b"⟩] unlinked, rfl,
    noninterference_render.2.2.1 .modern d .experience (.only .hyperlink) [⟨"a", "b"⟩] rfl⟩

end Layout

end Vitae
