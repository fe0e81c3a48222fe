import Vitae.Proofs.Layout.Composition
import Vitae.Proofs.Layout.IdentityBlock
import Vitae.Proofs.Layout.Source

namespace Vitae.Layout

open Text Tex

/-! ## The parts of a document -/

structure Part where
  key : Option SectionKey
  title : Tex
  body : Tex

def order : Layout → List SectionKey
  | .classic => Classic.order
  | .modern => Modern.left ++ Modern.right
  | .detailed => Detailed.left ++ Detailed.right
  | .executiveBlue => ExecutiveBlue.order
  | .executiveGray => ExecutiveGray.lead ++ [.education, .achievements] ++ ExecutiveGray.tail

def isReachable (i : Identity) : Bool :=
  [i.phone, i.email, i.location, i.portfolio, i.social].any (!isBlankString ·)

def contactPart (i : Identity) : Part :=
  ⟨none, "Contact", joinPresent "\\\\\n" (Masthead.ofIdentity i).contactParts⟩

def sectionPart (style : SectionStyle) (d : Document) (k : SectionKey) : Part :=
  ⟨some k, escapeTrimmed (d.heading k).toList, style.body d k⟩

def customPart (s : CustomSection) : Part :=
  ⟨none, escapeTrimmed s.heading.toList, Body.format s.content.toList s.fieldTypes s.links⟩

/-- The parts of a document that have something to show, in the order of the layout. -/
def parts (l : Layout) (d : Document) : List Part :=
  (if l = .detailed ∧ isReachable d.identity then [contactPart d.identity] else [])
    ++ ((l.order.filter fun k => !d.isHidden k && !(l.style.body d k).isEmpty).map
      (sectionPart l.style d))
    ++ ((d.customSections.filter fun s => !isBlankString s.heading && !(customPart s).body.isEmpty).map
      customPart)

def Part.block (style : SectionStyle) (p : Part) : Tex :=
  style.block p.key p.title p.body

theorem count_order (l : Layout) (k : SectionKey) : l.order.count k = 1 := by
  cases l <;> cases k <;> rfl

/-! ## The sections of a body -/

section

variable {style : SectionStyle} {d : Document} {length : String}

theorem filterMap_section? (style : SectionStyle) (d : Document) (keys : List SectionKey) :
    keys.filterMap (style.section? d) =
      (((keys.filter fun k => !d.isHidden k && !(style.body d k).isEmpty).map (sectionPart style d)).map
        (Part.block style)) := by
  induction keys with
  | nil => rfl
  | cons k keys ih =>
    rw [List.filterMap_cons, List.filter_cons, SectionStyle.section?, ih]
    cases d.isHidden k <;> cases (style.body d k).isEmpty <;> rfl

theorem custom?_eq (style : SectionStyle) (s : CustomSection) :
    style.custom? s = if isBlankString s.heading || (customPart s).body.isEmpty then none
      else some ((customPart s).block style) := by
  have title : (escapeTrimmed s.heading.toList).isEmpty = isBlankString s.heading := by
    rw [Bool.eq_iff_iff, List.isEmpty_iff, escapeTrimmed_eq_nil_iff, isBlankString]
  rw [SectionStyle.custom?, title]
  rfl

theorem filterMap_custom? (style : SectionStyle) (l : List CustomSection) :
    l.filterMap style.custom? =
      (((l.filter fun s => !isBlankString s.heading && !(customPart s).body.isEmpty).map customPart).map
        (Part.block style)) := by
  induction l with
  | nil => rfl
  | cons s l ih =>
    rw [List.filterMap_cons, List.filter_cons, custom?_eq, ih]
    cases isBlankString s.heading <;> cases (customPart s).body.isEmpty <;> rfl

/-! ### The ways of contact -/

theorem withIcon_eq_nil_iff {sign : String} {value : Tex} : withIcon sign value = [] ↔ value = [] :=
  present_eq_nil_iff fun _ => by simp [Tex.control]

theorem linked_eq_nil_iff {target : Option Tex} {text : Tex} : linked target text = [] ↔ text = [] := by
  cases target with
  | none => exact Iff.rfl
  | some t => exact present_eq_nil_iff fun _ => by simp [Target.href, Tex.control]

theorem contactPart_body_eq_nil_iff (i : Identity) :
    (contactPart i).body = [] ↔ isReachable i = false := by
  simp only [contactPart, joinPresent_eq_nil_iff, Masthead.contactParts, Masthead.reachParts,
    Masthead.onlineParts, List.cons_append, List.nil_append, List.forall_mem_cons, withIcon_eq_nil_iff,
    Masthead.ofIdentity, linked_eq_nil_iff, escapeTrimmed_eq_nil_iff]
  simp [isReachable, isBlankString]

theorem contact_eq (i : Identity) : Detailed.contact (.ofIdentity i) =
    if isReachable i then (contactPart i).block Detailed.style else [] := by
  have shown : (contactPart i).body.isEmpty = !isReachable i := by
    rw [Bool.eq_iff_iff, List.isEmpty_iff, contactPart_body_eq_nil_iff, Bool.not_eq_true']
  change (if (contactPart i).body.isEmpty then [] else (contactPart i).block Detailed.style) = _
  rw [shown]
  cases isReachable i <;> rfl

theorem composed_contact (i : Identity) : Composed length (Detailed.contact (.ofIdentity i))
    (if isReachable i then [(contactPart i).block Detailed.style] else []) := by
  rw [contact_eq]
  split
  · have lines : Composed length (joinPresent "\\\\\n" (Masthead.ofIdentity i).contactParts) [] :=
      .presentLines List.mem_cons_self (Masthead.composes_ofIdentity i).contactParts
    exact SectionStyle.composed_block (composes_style .detailed) none rfl lines
  · exact .smooth .nil

/-! ### Columns and rows -/

theorem composed_columns {left right : Tex} {bs cs : List Tex} (hl : Composed length left bs)
    (hr : Composed length right cs) : Composed length (columns left right) (bs ++ cs) := by
  have gap : Smooth ("\n\n" ++ control "columnbreak" ++ "\n\n") := rfl
  have both := (hl.append_smooth gap).append hr
  have closed := (both.append_smooth .line).append_smooth (t := closing "multicols") rfl
  simpa only [columns, List.append_assoc] using closed

theorem composed_sharedRow (d : Document) : Composed length (ExecutiveGray.sharedRow d)
    ([SectionKey.education, .achievements].filterMap (ExecutiveGray.style.section? d)) := by
  have cell (k : SectionKey) : Composed length ((ExecutiveGray.style.section? d k).getD [])
      (ExecutiveGray.style.section? d k).toList := by
    cases shown : ExecutiveGray.style.section? d k with
    | none => exact .smooth .nil
    | some s => exact SectionStyle.composed_section? (composes_style .executiveGray) d shown
  have both : [SectionKey.education, .achievements].filterMap (ExecutiveGray.style.section? d) =
      (ExecutiveGray.style.section? d .education).toList
        ++ (ExecutiveGray.style.section? d .achievements).toList := by
    cases education : ExecutiveGray.style.section? d .education <;>
      cases achievements : ExecutiveGray.style.section? d .achievements <;>
      simp [education, achievements]
  have between : Smooth ("\n\n" ++ control "columnbreak" ++ "\n\n") := rfl
  have row : Composed length _ _ := .pair between (cell .education) (cell .achievements)
  rw [both]
  exact .present row (.environment rfl rfl rfl row)

/-! ### Bodies of layouts -/

def blocks (l : Layout) (d : Document) : List Tex :=
  (l.parts d).map (Part.block l.style)

def contactBlocks (l : Layout) (i : Identity) : List Tex :=
  if l = .detailed ∧ isReachable i then [(contactPart i).block l.style] else []

def sectionBlocks (l : Layout) (d : Document) : List Tex :=
  l.order.filterMap (l.style.section? d) ++ d.customSections.filterMap l.style.custom?

theorem blocks_eq (l : Layout) (d : Document) :
    l.blocks d = l.contactBlocks d.identity ++ l.sectionBlocks d := by
  rw [blocks, parts, List.map_append, List.map_append, ← filterMap_section?, ← filterMap_custom?,
    List.append_assoc, contactBlocks]
  split <;> rfl

theorem composed_identityBlock (l : Layout) (i : Identity) :
    Composed l.extraSpace (l.identityBlock i) (l.contactBlocks i) := by
  have masthead := Masthead.composes_ofIdentity i
  cases l with
  | classic => exact Classic.composed_header masthead
  | modern => exact Modern.composed_header masthead
  | detailed =>
    have opens : Smooth ("\n\n" ++ opening "multicols" ++ braced "2" ++ "\n") := rfl
    have block := ((Detailed.composed_banner masthead).append_smooth opens).append (composed_contact i)
    simp only [identityBlock, contactBlocks, true_and, List.nil_append, List.append_assoc] at block ⊢
    exact block
  | executiveBlue => exact ExecutiveBlue.composed_header masthead
  | executiveGray => exact ExecutiveGray.composed_header masthead

theorem composed_below (l : Layout) (d : Document) :
    Composed l.extraSpace (l.below d) (l.sectionBlocks d) := by
  have sections : ∀ keys, Composed l.extraSpace (l.style.sections d keys) _ :=
    SectionStyle.composed_sections (composes_style l) d
  have custom : Composed l.extraSpace (l.style.customSections d.customSections) _ :=
    SectionStyle.composed_customSections (composes_style l) d.customSections
  cases l with
  | classic => exact (Composed.pair .paragraph (sections Classic.order) custom).behind .paragraph
  | modern =>
    have opens : Smooth (opening "multicols" ++ braced "2" ++ "\n") := rfl
    have right := Composed.pair .paragraph (sections Modern.right) custom
    have page : Composed "4pt" (below .modern d) _ :=
      (Composed.smooth_append opens (composed_columns (sections Modern.left) right)).behind .paragraph
    simp only [sectionBlocks, order, List.filterMap_append, List.append_assoc] at page ⊢
    exact page
  | detailed =>
    have right := Composed.pair .paragraph (sections Detailed.right) custom
    have page : Composed "6pt" (below .detailed d) _ :=
      composed_columns ((sections Detailed.left).behind .paragraph) right
    simp only [sectionBlocks, order, List.filterMap_append, List.append_assoc] at page ⊢
    exact page
  | executiveBlue =>
    exact (Composed.pair .paragraph (sections ExecutiveBlue.order) custom).behind .paragraph
  | executiveGray =>
    have tail := Composed.pair .paragraph (sections ExecutiveGray.tail) custom
    have middle := Composed.joinPresent_cons .paragraph (composed_sharedRow d) tail
    have page : Composed "3pt" (below .executiveGray d) _ :=
      (Composed.joinPresent_cons .paragraph (sections ExecutiveGray.lead) middle).behind .paragraph
    simp only [sectionBlocks, order, List.filterMap_append, List.append_assoc] at page ⊢
    exact page

end

/-! ## The sections of a source -/

theorem escapeTrimmed_ne_nil {s : String} (visible : isBlankString s = false) :
    escapeTrimmed s.toList ≠ [] := by
  rw [Ne, escapeTrimmed_eq_nil_iff]
  exact fun blank => Bool.noConfusion (visible.symm.trans blank)

theorem visible_of_mem_parts {l : Layout} {d : Document} {p : Part} (mem : p ∈ l.parts d) :
    p.title ≠ [] ∧ p.body ≠ [] := by
  rw [parts, List.mem_append, List.mem_append] at mem
  rcases mem with (contact | builtIn) | custom
  · split at contact
    · case isTrue shown =>
      have title : "Contact".toList ≠ [] := by decide
      rw [List.mem_singleton.mp contact]
      refine ⟨title, fun empty => ?_⟩
      rw [contactPart_body_eq_nil_iff, shown.2] at empty
      cases empty
    · case isFalse => cases contact
  · obtain ⟨k, shown, rfl⟩ := List.mem_map.mp builtIn
    obtain ⟨-, shown⟩ := List.mem_filter.mp shown
    simp only [Bool.and_eq_true, Bool.not_eq_true', List.isEmpty_eq_false_iff] at shown
    exact ⟨escapeTrimmed_ne_nil (d.heading_visible k), shown.2⟩
  · obtain ⟨s, shown, rfl⟩ := List.mem_map.mp custom
    obtain ⟨-, shown⟩ := List.mem_filter.mp shown
    simp only [Bool.and_eq_true, Bool.not_eq_true', List.isEmpty_eq_false_iff] at shown
    exact ⟨escapeTrimmed_ne_nil shown.1, shown.2⟩

theorem smooth_preface (l : Layout) : Smooth l.preface := by
  cases l <;> decide +kernel

def start (l : Layout) (i : Identity) : Tex :=
  l.preface ++ opening "document" ++ "\n\n" ++ l.identityBlock i

def remainder (l : Layout) (d : Document) : Tex :=
  l.below d ++ "\n\n" ++ closing "document"

theorem render_eq_start_append (l : Layout) (d : Document) :
    l.render d = l.start d.identity ++ l.remainder d := by
  have block : Block (l.dialect False) (l.body d) := block_body False.elim
  rw [render_eq, inside, Text.trim_of_solid block.solid, body_eq]
  simp only [start, remainder, List.append_assoc]

theorem composed_start (l : Layout) (i : Identity) :
    Composed l.extraSpace (l.start i) (l.contactBlocks i) := by
  have opens : Smooth (opening "document") := rfl
  exact .smooth_append (((smooth_preface l).append opens).append .paragraph) (composed_identityBlock l i)

theorem composed_remainder (l : Layout) (d : Document) :
    Composed l.extraSpace (l.remainder d) (l.sectionBlocks d) := by
  have closes : Smooth (closing "document") := rfl
  exact ((composed_below l d).append_smooth .paragraph).append_smooth closes

theorem composed_render (l : Layout) (d : Document) :
    Composed l.extraSpace (l.render d) (l.blocks d) := by
  rw [render_eq_start_append, blocks_eq]
  exact (composed_start l d.identity).append (composed_remainder l d)

theorem headed_render (l : Layout) (d : Document) : Headed (l.render d) (l.blocks d) :=
  (composed_render l d).headed (smooth_extraSpace l)

/-! ### What a layout puts around a body -/

def smallFrame (declarations : Tex) : Tex × Tex :=
  ('{' :: (declarations ++ "\n"), ['\n', '}'])

def columnsFrame (columns : Tex) (inner : Tex × Tex) : Tex × Tex :=
  (opening "multicols" ++ braced columns ++ "\n" ++ inner.1, inner.2 ++ "\n" ++ closing "multicols")

def frame : Layout → Option SectionKey → Tex × Tex
  | .classic, _ | .modern, _ => ([], [])
  | .detailed, _ => smallFrame (control "small")
  | .executiveBlue, some .skills => columnsFrame "3" ([], [])
  | .executiveBlue, _ => ([], [])
  | .executiveGray, some .football =>
    columnsFrame "2" (smallFrame (control "footnotesize" ++ command "color" "textgray"))
  | .executiveGray, _ => smallFrame (control "footnotesize" ++ command "color" "textgray")

theorem wrap_eq (l : Layout) (key : Option SectionKey) (body : Tex) : l.style.wrap key body =
    (l.frame key).1 ++ (if l = .executiveBlue ∧ key = some .skills ∧ ReadsOption body then braced [] else []) ++
      body ++ (l.frame key).2 := by
  cases l with
  | classic | modern => simp [frame, style, Classic.style, Modern.style]
  | detailed => simp [frame, smallFrame, style, Detailed.style, Detailed.smallPrint, braced]
  | executiveBlue =>
    rcases key with _ | k
    · simp [frame, style, ExecutiveBlue.style, ExecutiveBlue.wrap]
    · cases k <;> simp [frame, columnsFrame, style, ExecutiveBlue.style, ExecutiveBlue.wrap, environment,
        guardLineStart_eq]
  | executiveGray =>
    rcases key with _ | k
    · simp [frame, smallFrame, style, ExecutiveGray.style, ExecutiveGray.wrap, braced]
    · cases k <;> simp [frame, smallFrame, columnsFrame, style, ExecutiveGray.style, ExecutiveGray.wrap,
        environment, braced]

/-- The sections of a source are the parts of the document that have something to show, in the order of
the layout. Each has a title, and its body stands behind the heading in full. -/
theorem headings_render (l : Layout) (d : Document) :
    List.Forall₂ (fun h p => ∃ rest, h = command "section*" (l.icon p.key ++ p.title) ++ "\n"
        ++ l.style.wrap p.key p.body ++ rest) (headings (l.render d)) (l.parts d) ∧
      (∀ key body, l.style.wrap key body = (l.frame key).1 ++
        (if l = .executiveBlue ∧ key = some .skills ∧ ReadsOption body then braced [] else []) ++
          body ++ (l.frame key).2) ∧
      (∀ p ∈ l.parts d, p.title ≠ [] ∧ p.body ≠ []) ∧ ∀ k, l.order.count k = 1 := by
  refine ⟨?_, wrap_eq l, fun _ => visible_of_mem_parts, count_order l⟩
  have starts := List.forall₂_map_right_iff.mp (headed_render l d).starts
  apply starts.imp
  rintro h p ⟨rest, rfl⟩
  exact ⟨rest, by rw [Part.block, SectionStyle.block, heading_eq]⟩

end Vitae.Layout
