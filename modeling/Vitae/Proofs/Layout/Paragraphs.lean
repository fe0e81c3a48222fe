import Vitae.Proofs.Layout.Identity
import Vitae.Proofs.Section.Paragraphs

namespace Vitae

open Text Tex

/-! ## The identity -/

def Particular.linkTexts (i : Identity) (p : Particular) : List String :=
  if (p.target? i).isSome then [p.text i] else []

variable (i : Identity)

theorem Particular.encloses_linked (p : Particular) :
    Encloses (Layout.linked (p.target? i) (p.label i)) (p.linkTexts i) := by
  have label : Bears (p.label i) [p.text i] := .escapeTrimmed _
  unfold Layout.linked linkTexts
  cases target : p.target? i with
  | none => exact .mute label.mute
  | some t => exact .presentArgument label (.href (target?_hardened target).1 label)

theorem Particular.encloses_drawn (p : Particular) : Encloses (p.drawn i) (p.linkTexts i) := by
  have signs : ∀ p ∈ all, ∀ w ∈ p.icon?, Mute (control w ++ control " ") := by decide
  have value := encloses_linked i p
  unfold Particular.drawn
  split
  · case h_1 w icon => exact .present value (value.mute_append (signs p p.mem_all w icon))
  · exact value

namespace Layout

def contacts : List Particular :=
  [.phone, .email, .location, .portfolio, .social]

def titleTexts : Layout → Identity → List String
  | .classic, i | .modern, i => [i.title]
  | .detailed, _ | .executiveBlue, _ | .executiveGray, _ => []

def identityTexts (l : Layout) (i : Identity) : List String :=
  i.name :: (l.titleTexts i ++ contacts.flatMap (Particular.linkTexts i))

theorem mute_quad : Mute (" " ++ control "quad" ++ " ") := by
  decide

theorem encloses_line {separator : Tex} (between : Mute separator) (ps : List Particular) :
    Encloses (joinPresent separator (ps.map (Particular.drawn i))) (ps.flatMap (Particular.linkTexts i)) := by
  induction ps with
  | nil => exact .nil
  | cons p ps ih => exact .joinPresent_cons between (p.encloses_drawn i) ih

structure Holds (m : Masthead) (names titles reached found : List String) : Prop where
  name : Bears m.name names
  title : Bears m.title titles
  subtitle : Mute m.subtitle
  reach : Encloses (joinPresent (" " ++ control "quad" ++ " ") m.reachParts) reached
  online : Encloses (joinPresent (" " ++ control "quad" ++ " ") m.onlineParts) found
  contacts {separator : Tex} (between : Mute separator) :
    Encloses (joinPresent separator m.contactParts) (reached ++ found)

theorem holds_ofIdentity : Holds (.ofIdentity i) [i.name] [i.title]
    ([Particular.phone, .email, .location].flatMap (Particular.linkTexts i))
    ([Particular.portfolio, .social].flatMap (Particular.linkTexts i)) where
  name := .escapeTrimmed i.name
  title := .escapeTrimmed i.title
  subtitle := .escape _
  reach := by
    rw [reachParts_eq]
    exact encloses_line i mute_quad _
  online := by
    rw [onlineParts_eq]
    exact encloses_line i mute_quad _
  contacts between := by
    rw [Masthead.contactParts, reachParts_eq, onlineParts_eq, ← List.map_append, ← List.flatMap_append]
    exact encloses_line i between _

namespace Holds

variable {m : Masthead} {names titles reached found : List String} (h : Holds m names titles reached found)

include h

theorem boldHeadline : Encloses (m.headline (command "textbf")) titles := by
  have bold : Encloses (present (command "textbf") m.title) titles :=
    .presentArgument h.title (.command (by decide) h.title)
  have bar : Mute " | ".toList := by decide
  have headline := Encloses.pair bar bold (.mute h.subtitle)
  rwa [List.append_nil] at headline

theorem plainHeadline : Encloses (m.headline fun t => t) [] := by
  have title : Encloses m.title [] := .mute h.title.mute
  exact .pair (by decide) (title.present title) (.mute h.subtitle)

theorem nameLine {declarations : Tex} {w : String} (mute : Mute (declarations ++ " ")) (mem : w ∈ argumentWords) :
    Encloses (grouped declarations (styled w m.name)) names :=
  .grouped mute (.styled mem h.name)

theorem executiveLines {separator name headline small : Tex} (between : Mute separator)
    (hn : Mute (name ++ " ")) (hh : Mute (headline ++ " ")) (hs : Mute (small ++ " ")) :
    Encloses (joinPresent separator (executiveLines m name headline small)) (names ++ (reached ++ found)) := by
  have contacts := Encloses.pair between (h.reach.grouped hs) (h.online.grouped hs)
  have lower := Encloses.joinPresent_cons between (h.plainHeadline.grouped hh) contacts
  exact .joinPresent_cons between (h.nameLine hn (by decide)) lower

/-! ### Identity blocks -/

theorem classicHeader : Encloses (Classic.header m) (names ++ (titles ++ (reached ++ found))) := by
  have between : Mute (breakLine "2pt") := by decide
  have large : Mute (control "large" ++ " ") := by decide
  have name := h.nameLine (w := "textbf") large (by decide)
  have lower := Encloses.joinPresent_cons between h.boldHeadline (.pair between h.reach h.online)
  have lines := Encloses.joinPresent_cons between name lower
  unfold Classic.header
  refine lines.present (.append_mute (.append_mute (.environment ?_ ?_ lines) ?_) ?_)
  all_goals decide

theorem modernHeader : Encloses (Modern.header m) (names ++ (titles ++ (reached ++ found))) := by
  have between : Mute (breakLine "4pt") := by decide
  have huge : Mute (control "Huge" ++ control "bfseries" ++ command "color" "darkblue" ++ " ") := by decide
  have large : Mute (control "large" ++ command "color" "primaryblue" ++ " ") := by decide
  have small : Mute (control "small" ++ " ") := by decide
  have name := h.nameLine (w := "MakeUppercase") huge (by decide)
  have headline := h.boldHeadline.grouped large
  have contacts := (h.contacts mute_quad).grouped small
  have lines := Encloses.joinPresent_cons between name (.pair between headline contacts)
  unfold Modern.header
  refine lines.present (.environment ?_ ?_ lines)
  all_goals decide

theorem banner : Encloses (Detailed.banner m) names := by
  unfold Detailed.banner
  extract_lets lines picture
  have text : Encloses lines names := by
    have between : Mute (breakLine "6pt") := by decide
    have huge : Mute (control "Huge" ++ control "bfseries" ++ " ") := by decide
    have large : Mute (control "large" ++ " ") := by decide
    have name := h.nameLine (w := "MakeUppercase") huge (by decide)
    have pair := Encloses.pair between name (h.plainHeadline.grouped large)
    rwa [List.append_nil] at pair
  have drawn : Encloses picture names := by
    refine .append_mute (.mute_append ?_ (.braced (.environment ?_ ?_ text))) ?_
    all_goals decide +kernel
  refine .append_mute (.append_mute (.environment ?_ ?_ drawn) ?_) ?_
  all_goals decide

theorem contact : Encloses (Detailed.contact m) (reached ++ found) := by
  have between : Mute "\\\\\n".toList := by decide
  have lines := h.contacts between
  have whole : '\n' ∉ "Contact".toList := by decide
  have word : Bears "Contact".toList [] := .line whole
  have title : Encloses (command "section*" "Contact") [] := .command (by decide) word
  have line : Mute "\n".toList := by decide
  have small : Mute (control "small" ++ "\n") := by decide
  have print : Encloses (Detailed.smallPrint (joinPresent "\\\\\n" m.contactParts)) (reached ++ found) :=
    ((lines.mute_append small).append_mute line).braced
  exact lines.present ((title.append_mute line).append print)

theorem blueHeader : Encloses (ExecutiveBlue.header m) (names ++ (reached ++ found)) := by
  rw [ExecutiveBlue.header_eq]
  refine .append_mute (.environment ?_ ?_ (h.executiveLines ?_ ?_ ?_ ?_)) ?_
  all_goals decide +kernel

theorem grayHeader : Encloses (ExecutiveGray.header m) (names ++ (reached ++ found)) := by
  rw [ExecutiveGray.header_eq]
  refine .append_mute (.environment ?_ ?_ (h.executiveLines ?_ ?_ ?_ ?_)) ?_
  all_goals decide

end Holds

theorem encloses_identityBlock (l : Layout) (i : Identity) :
    Encloses (l.identityBlock i) (l.identityTexts i) := by
  have holds := holds_ofIdentity i
  have texts : l.identityTexts i = [i.name] ++ (l.titleTexts i ++
      ([Particular.phone, .email, .location].flatMap (Particular.linkTexts i) ++
        [Particular.portfolio, .social].flatMap (Particular.linkTexts i))) := by
    rw [← List.flatMap_append]
    rfl
  rw [texts]
  cases l with
  | classic => exact holds.classicHeader
  | modern => exact holds.modernHeader
  | detailed =>
    have opens : Mute ("\n\n" ++ opening "multicols" ++ braced "2" ++ "\n") := by decide
    have block := (holds.banner.append_mute opens).append holds.contact
    rw [titleTexts, List.nil_append]
    simp only [identityBlock, List.append_assoc] at block ⊢
    exact block
  | executiveBlue =>
    rw [titleTexts, List.nil_append]
    exact holds.blueHeader
  | executiveGray =>
    rw [titleTexts, List.nil_append]
    exact holds.grayHeader

/-! ## The sections -/

def sectionTexts (l : Layout) (d : Document) (keys : List SectionKey) : List String :=
  (keys.filter fun k => (l.style.section? d k).isSome).flatMap fun k => d.heading k :: l.bodyTexts d k

def customTexts (l : Layout) (sections : List CustomSection) : List String :=
  (sections.filter fun s => (l.style.custom? s).isSome).flatMap fun s =>
    s.heading :: Body.argumentTexts s.fieldTypes s.links

/-- The texts of a document that a source has in arguments: of the identity, of the built-in sections that are
shown, and of those that the user made up. -/
def argumentTexts (l : Layout) (d : Document) : List String :=
  l.identityTexts d.identity ++ (l.sectionTexts d l.order ++ l.customTexts d.customSections)

theorem mute_paragraph : Mute "\n\n".toList := by
  decide

theorem encloses_sections (l : Layout) (d : Document) (keys : List SectionKey) :
    Encloses (l.style.sections d keys) (l.sectionTexts d keys) :=
  .joinSome mute_paragraph fun _ _ _ => l.encloses_section?

theorem encloses_customSections (l : Layout) (sections : List CustomSection) :
    Encloses (l.style.customSections sections) (l.customTexts sections) :=
  .joinSome mute_paragraph fun _ _ _ => l.encloses_custom?

theorem sectionTexts_append (l : Layout) (d : Document) (keys others : List SectionKey) :
    l.sectionTexts d (keys ++ others) = l.sectionTexts d keys ++ l.sectionTexts d others := by
  rw [sectionTexts, List.filter_append, List.flatMap_append, ← sectionTexts, ← sectionTexts]

theorem encloses_columns {left right : Tex} {texts others : List String} (hl : Encloses left texts)
    (hr : Encloses right others) : Encloses (columns left right) (texts ++ others) := by
  have gap : Mute ("\n\n" ++ control "columnbreak" ++ "\n\n") := by decide
  have closes : Mute ("\n" ++ closing "multicols") := by decide
  have page := ((hl.append_mute gap).append hr).append_mute closes
  simpa only [columns, List.append_assoc] using page

theorem encloses_sharedRow (d : Document) :
    Encloses (ExecutiveGray.sharedRow d) (sectionTexts .executiveGray d [.education, .achievements]) := by
  have cell (k : SectionKey) : Encloses ((ExecutiveGray.style.section? d k).getD [])
      (sectionTexts .executiveGray d [k]) := by
    have list := encloses_sections .executiveGray d [k]
    have row : style .executiveGray = ExecutiveGray.style := rfl
    rw [row, SectionStyle.sections, List.filterMap_cons] at list
    cases shown : ExecutiveGray.style.section? d k <;> simpa [shown, join] using list
  have between : Mute ("\n\n" ++ control "columnbreak" ++ "\n\n") := by decide
  have row := Encloses.pair between (cell .education) (cell .achievements)
  rw [← sectionTexts_append] at row
  exact row.present (.environment (by decide) (by decide) row)

theorem encloses_below (l : Layout) (d : Document) :
    Encloses (l.below d) (l.sectionTexts d l.order ++ l.customTexts d.customSections) := by
  have sections := l.encloses_sections d
  have custom := l.encloses_customSections d.customSections
  cases l with
  | classic => exact (Encloses.pair mute_paragraph (sections Classic.order) custom).behind mute_paragraph
  | modern =>
    have opens : Mute (opening "multicols" ++ braced "2" ++ "\n") := by decide
    have right := Encloses.pair mute_paragraph (sections Modern.right) custom
    have page : Encloses (below .modern d) _ :=
      (Encloses.mute_append opens (encloses_columns (sections Modern.left) right)).behind mute_paragraph
    rw [← List.append_assoc, ← sectionTexts_append] at page
    exact page
  | detailed =>
    have right := Encloses.pair mute_paragraph (sections Detailed.right) custom
    have page : Encloses (below .detailed d) _ :=
      encloses_columns ((sections Detailed.left).behind mute_paragraph) right
    rw [← List.append_assoc, ← sectionTexts_append] at page
    exact page
  | executiveBlue =>
    exact (Encloses.pair mute_paragraph (sections ExecutiveBlue.order) custom).behind mute_paragraph
  | executiveGray =>
    have tail := Encloses.pair mute_paragraph (sections ExecutiveGray.tail) custom
    have middle := Encloses.joinPresent_cons mute_paragraph (encloses_sharedRow d) tail
    have page : Encloses (below .executiveGray d) _ :=
      (Encloses.joinPresent_cons mute_paragraph (sections ExecutiveGray.lead) middle).behind mute_paragraph
    rw [← List.append_assoc, ← List.append_assoc, ← sectionTexts_append, ← sectionTexts_append] at page
    exact page

/-! ## Sources -/

theorem mute_preface (l : Layout) : Mute l.preface := by
  cases l <;> decide +kernel

theorem encloses_render (l : Layout) (d : Document) : Encloses (l.render d) (l.argumentTexts d) := by
  have opens : Mute (opening "document" ++ "\n\n") := by decide
  have closes : Mute ("\n\n" ++ closing "document") := by decide
  have start : Encloses (l.start d.identity) (l.identityTexts d.identity) := by
    have front := Mute.append l.mute_preface opens
    simpa only [Layout.start, List.append_assoc] using (l.encloses_identityBlock d.identity).mute_append front
  have rest : Encloses (l.remainder d) (l.sectionTexts d l.order ++ l.customTexts d.customSections) := by
    simpa only [remainder, List.append_assoc] using (l.encloses_below d).append_mute closes
  rw [render_eq_start_append]
  exact start.append rest

theorem torn_render (l : Layout) (d : Document) :
    (∃ a ∈ arguments (l.render d), HasBlankLine a) ↔ ∃ text ∈ l.argumentTexts d, IsTorn text := by
  obtain ⟨args, cut, torn⟩ := (l.encloses_render d).arguments
  have whole := cut []
  rw [List.append_nil] at whole
  rw [whole, arguments, List.append_nil, torn]

/-- No paragraph ends in an argument exactly if none of the texts that the layout sets in arguments has a blank line
inside. -/
theorem paragraphs_render (l : Layout) (d : Document) :
    (∀ a ∈ arguments (l.render d), ¬HasBlankLine a) ↔ ∀ text ∈ l.argumentTexts d, ¬IsTorn text := by
  simpa only [not_exists, not_and] using not_congr (l.torn_render d)

theorem paragraphs_twoLineName :
    ¬∀ a ∈ arguments (render .classic { identity.name := "A\n\nB" }), ¬HasBlankLine a := by
  have torn : IsTorn "A\n\nB" := hasBlankLine_iff.mpr (by decide)
  obtain ⟨a, mem, blankLine⟩ := (torn_render .classic { identity.name := "A\n\nB" }).mpr
    ⟨"A\n\nB", List.mem_cons_self, torn⟩
  exact fun whole => whole a mem blankLine

end Layout

end Vitae
