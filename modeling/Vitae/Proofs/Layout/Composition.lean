import Vitae.Layout.Catalogue
import Vitae.Proofs.Layout.Masthead
import Vitae.Proofs.Section.Body

namespace Vitae.Layout

open Text Tex

variable {h : EntryHeader} {m : Masthead} {length : String}

def extraSpace : Layout → String
  | .classic => "2pt"
  | .modern => "4pt"
  | .detailed => "6pt"
  | .executiveBlue => "4pt"
  | .executiveGray => "3pt"

theorem smooth_extraSpace (l : Layout) : Smooth l.extraSpace.toList := by
  cases l <;> rfl

/-! ## Styles -/

def icon : Layout → Option SectionKey → Tex
  | .classic, key | .modern, key => sectionIcon key ++ control " "
  | _, _ => []

theorem heading_eq (l : Layout) (key : Option SectionKey) (title : Tex) :
    l.style.heading key title = command "section*" (l.icon key ++ title) := by
  cases l <;> rfl

theorem smooth_sectionIcon (key : Option SectionKey) : Smooth (sectionIcon key) := by
  cases key with
  | none => rfl
  | some k => cases k <;> rfl

theorem smooth_icon (l : Layout) (key : Option SectionKey) : Smooth (l.icon key) := by
  have sign : Smooth (sectionIcon key ++ control " ") := (smooth_sectionIcon key).append rfl
  cases l with
  | classic => exact sign
  | modern => exact sign
  | _ => exact .nil

theorem smooth_hfill : Smooth (" " ++ control "hfill" ++ " ") := rfl

theorem composed_oneLine {lead dates : Tex} (hl : Field lead) (hd : Field dates) :
    Composed length (joinPresent (" " ++ control "hfill" ++ " ") [lead, dates]) [] :=
  .smooth (Field.pair smooth_hfill hl hd).smooth

theorem composed_twoLines {first second : Tex} (h₁ : Field first) (h₂ : Field second) :
    Composed length (joinPresent "\\\\\n" [first, second]) [] :=
  .presentLines List.mem_cons_self (forall_mem_pair h₁ h₂)

theorem composed_experienceHeader (l : Layout) (composes : h.Composes) :
    Composed length (l.style.experience.header h) [] := by
  obtain ⟨title, organization, dates⟩ := composes
  cases l with
  | classic =>
    have lead : Field (joinPresent " -- " [styled "textbf" h.title, styled "textit" h.organization]) :=
      .pair rfl (.styled rfl rfl title) (.styled rfl rfl organization)
    exact composed_oneLine lead (.styled rfl rfl dates)
  | modern =>
    have organization : Field (coloured "primaryblue" (styled "textbf" h.organization)) :=
      .coloured rfl (.styled rfl rfl organization)
    exact composed_twoLines (.styled rfl rfl title)
      (.pair smooth_hfill organization (.styled rfl rfl dates))
  | detailed =>
    have dates : Field (grouped (control "footnotesize") h.dates) := .grouped rfl dates
    exact composed_twoLines (.styled rfl rfl title)
      (.pair smooth_hfill (.styled rfl rfl organization) dates)
  | executiveBlue =>
    have lead : Field (joinPresent " | "
        [styled "textbf" h.title, coloured "executivebluelight" h.organization]) :=
      .pair rfl (.styled rfl rfl title) (.coloured rfl organization)
    exact composed_oneLine lead (.styled rfl rfl dates)
  | executiveGray =>
    have lead : Field (joinPresent ", " [styled "textbf" h.title, h.organization]) :=
      .pair rfl (.styled rfl rfl title) organization
    exact composed_oneLine lead (.styled rfl rfl dates)

theorem composed_educationHeader (l : Layout) (composes : h.Composes) :
    Composed length (l.style.education.header h) [] := by
  cases l with
  | classic =>
    have lead : Field (joinPresent " -- " [styled "textbf" h.title, h.organization]) :=
      .pair rfl (.styled rfl rfl composes.title) composes.organization
    exact composed_oneLine lead (.styled rfl rfl composes.dates)
  | executiveBlue =>
    have second : Field (joinPresent (" " ++ control "hfill" ++ " ")
        [styled "textit" h.organization, h.dates]) :=
      .pair smooth_hfill (.styled rfl rfl composes.organization) composes.dates
    exact composed_twoLines (.styled rfl rfl composes.title) second
  | modern => exact composed_experienceHeader .modern composes
  | detailed => exact composed_experienceHeader .detailed composes
  | executiveGray => exact composed_experienceHeader .executiveGray composes

theorem smooth_activities (l : Layout) {text : Tex} (smooth : Smooth text) :
    Smooth (l.style.education.activities text) := by
  have par : Smooth (control "par") := rfl
  have label : Smooth ("Activities: " ++ text) := .append rfl smooth
  have italic : Smooth (command "textit" ("Activities: " ++ text)) := .command rfl label
  have small : Smooth (control "small" ++ command "textit" ("Activities: " ++ text)) := .append rfl italic
  cases l with
  | classic => exact par.append italic
  | modern => exact par.append small.braced
  | detailed =>
    have print : Smooth (control "footnotesize" ++ " Activities: ") := rfl
    exact par.append (print.append smooth).braced
  | executiveBlue =>
    have print : Smooth (control "small" ++ " Activities: ") := rfl
    exact par.append (print.append smooth).braced
  | executiveGray => exact par.append italic

theorem composed_wrap (l : Layout) (key : Option SectionKey) {body : Tex}
    (composed : Composed length body []) : Composed length (l.style.wrap key body) [] := by
  cases l with
  | classic => exact composed
  | modern => exact composed
  | detailed => exact ((composed_smallPrint composed).append_smooth .line).braced
  | executiveBlue =>
    change Composed length (ExecutiveBlue.wrap key body) []
    unfold ExecutiveBlue.wrap
    split
    · exact .environment rfl rfl rfl composed.guardLineStart
    · exact composed
  | executiveGray =>
    have start : Smooth (control "footnotesize" ++ command "color" "textgray" ++ "\n") := rfl
    have print := ((Composed.smooth_append start composed).append_smooth .line).braced
    change Composed length (ExecutiveGray.wrap key body) []
    unfold ExecutiveGray.wrap
    dsimp only
    split
    · exact .environment rfl rfl rfl print
    · exact print

theorem composes_style (l : Layout) : l.style.Composes length where
  heading key title := ⟨l.icon key, smooth_icon l key, heading_eq l key title⟩
  wrap key _ := composed_wrap l key
  experience :=
    { header := fun _ => composed_experienceHeader l
      listOpening := by cases l <;> rfl
      separator := by cases l <;> rfl }
  education :=
    { header := fun _ => composed_educationHeader l
      activities := fun _ => smooth_activities l
      separator := by cases l <;> rfl }

/-! ## Mastheads -/

namespace Masthead

structure Composes (m : Masthead) : Prop where
  name : Field m.name
  title : Field m.title
  subtitle : Field m.subtitle
  phone : Field m.phone
  email : Field m.email
  location : Field m.location
  portfolio : Field m.portfolio
  social : Field m.social

theorem field_linked {target : Option Tex} {text : Tex} (hard : ∀ t ∈ target, Target.Hardened t)
    (field : Field text) : Field (linked target text) := by
  cases target with
  | none => exact field
  | some t => exact .present fun _ => .href (hard t rfl) field.smooth

theorem field_mail (address : List Char) :
    Field (linked (Target.mailto? address) (escapeTrimmed address)) :=
  field_linked (fun _ mem => Target.hardened_mailto? mem) (.escapeTrimmed address)

theorem field_page (address : List Char) :
    Field (linked (Target.url? address) (escapeTrimmed address)) :=
  field_linked (fun _ mem => Target.hardened_url? mem) (.escapeTrimmed address)

theorem composes_ofIdentity (i : Identity) : (ofIdentity i).Composes := by
  constructor
  all_goals simp only [ofIdentity]
  case email => exact field_mail _
  case portfolio | social => exact field_page _
  all_goals exact .escapeTrimmed _

theorem field_withIcon {icon : String} {value : Tex} (sign : Smooth (control icon))
    (first : startsLine (control icon) = true) (field : Field value) : Field (withIcon icon value) := by
  refine .present fun ne => ⟨(sign.append (t := control " ") rfl).append field.smooth, ?_,
    (field ne).last.behind _⟩
  exact startsLine_append (startsLine_append first _) _

theorem Composes.reachParts (composes : m.Composes) : ∀ p ∈ m.reachParts, Field p := by
  simp only [Masthead.reachParts, List.forall_mem_cons]
  exact ⟨field_withIcon rfl rfl composes.phone, field_withIcon rfl rfl composes.email,
    field_withIcon rfl rfl composes.location, List.forall_mem_nil _⟩

theorem Composes.onlineParts (composes : m.Composes) : ∀ p ∈ m.onlineParts, Field p :=
  forall_mem_pair (field_withIcon rfl rfl composes.portfolio) (field_withIcon rfl rfl composes.social)

theorem Composes.contactParts (composes : m.Composes) : ∀ p ∈ m.contactParts, Field p :=
  List.forall_mem_append.mpr ⟨composes.reachParts, composes.onlineParts⟩

theorem Composes.headline (composes : m.Composes) {titleMarkup : Tex → Tex}
    (h : ∀ t, Line t → Line (titleMarkup t)) : Field (m.headline titleMarkup) :=
  .pair rfl (.present fun ne => h _ (composes.title ne)) composes.subtitle

end Masthead

theorem smooth_quad : Smooth (" " ++ control "quad" ++ " ") := rfl

theorem composed_centre {s : Tex} (composed : Composed length s []) :
    Composed length (environment "center" [] s) [] :=
  .environment rfl rfl .nil composed

theorem composed_spacedLines {parts : List Tex} (h : ∀ p ∈ parts, Field p) :
    Composed length (joinPresent (breakLine length) parts) [] :=
  .presentLines (List.mem_cons_of_mem _ List.mem_cons_self) h

def executiveLines (m : Masthead) (name headline small : Tex) : List Tex :=
  [grouped name (styled "MakeUppercase" m.name), grouped headline (m.headline fun t => t),
    grouped small (joinPresent (" " ++ control "quad" ++ " ") m.reachParts),
    grouped small (joinPresent (" " ++ control "quad" ++ " ") m.onlineParts)]

theorem field_executiveLines {name headline small : Tex} (composes : m.Composes) (hn : Smooth name)
    (hh : Smooth headline) (hs : Smooth small) : ∀ p ∈ executiveLines m name headline small, Field p := by
  simp only [executiveLines, List.forall_mem_cons]
  exact ⟨.grouped hn (.styled rfl rfl composes.name), .grouped hh (composes.headline fun _ h => h),
    .grouped hs (.joinPresent smooth_quad composes.reachParts),
    .grouped hs (.joinPresent smooth_quad composes.onlineParts), List.forall_mem_nil _⟩

theorem Classic.composed_header (composes : m.Composes) : Composed "2pt" (header m) [] := by
  have title (t : Tex) (line : Line t) : Line (command "textbf" t) := .command rfl rfl line.smooth
  have lines : Composed "2pt" (joinPresent (breakLine "2pt")
      [grouped (control "large") (styled "textbf" m.name), m.headline (command "textbf"),
        joinPresent (" " ++ control "quad" ++ " ") m.reachParts,
        joinPresent (" " ++ control "quad" ++ " ") m.onlineParts]) [] := by
    apply composed_spacedLines
    simp only [List.forall_mem_cons]
    exact ⟨.grouped rfl (.styled rfl rfl composes.name), composes.headline title,
      .joinPresent smooth_quad composes.reachParts, .joinPresent smooth_quad composes.onlineParts,
      List.forall_mem_nil _⟩
  have space : Smooth (command "vspace" "-2pt") := rfl
  unfold header
  exact .present lines (((composed_centre lines).append_smooth .line).append_smooth space)

theorem Modern.composed_header (composes : m.Composes) : Composed "4pt" (header m) [] := by
  have title (t : Tex) (line : Line t) : Line (command "textbf" t) := .command rfl rfl line.smooth
  have lines : Composed "4pt" (joinPresent (breakLine "4pt")
      [grouped (control "Huge" ++ control "bfseries" ++ command "color" "darkblue")
          (styled "MakeUppercase" m.name),
        grouped (control "large" ++ command "color" "primaryblue") (m.headline (command "textbf")),
        grouped (control "small") (joinPresent (" " ++ control "quad" ++ " ") m.contactParts)]) [] := by
    apply composed_spacedLines
    simp only [List.forall_mem_cons]
    exact ⟨.grouped rfl (.styled rfl rfl composes.name), .grouped rfl (composes.headline title),
      .grouped rfl (.joinPresent smooth_quad composes.contactParts), List.forall_mem_nil _⟩
  exact .present lines (composed_centre lines)

theorem Detailed.composed_banner (composes : m.Composes) : Composed "6pt" (banner m) [] := by
  have lines : Composed "6pt" (joinPresent (breakLine "6pt")
      [grouped (control "Huge" ++ control "bfseries") (styled "MakeUppercase" m.name),
        grouped (control "large") (m.headline fun t => t)]) [] :=
    composed_spacedLines (forall_mem_pair (.grouped rfl (.styled rfl rfl composes.name))
      (.grouped rfl (composes.headline fun _ h => h)))
  have box : Composed "6pt" (environment "minipage" (braced ("0.8" ++ control "paperwidth")) _) [] :=
    .environment rfl rfl rfl lines
  have place : Smooth (control "fill" ++ bracketed "headercolor"
      ++ " (current page.north west) rectangle ([yshift=-3.2cm]current page.north east);\n"
      ++ control "node" ++ bracketed "anchor=north west, text=white, inner sep=0pt"
      ++ " at ([xshift=0.65in,yshift=-0.9cm]current page.north west) ") := by
    decide +kernel
  have picture := (Composed.smooth_append place box.braced).append_smooth (t := ";".toList) rfl
  have drawn : Composed "6pt" (environment "tikzpicture" (bracketed "remember picture,overlay") _) [] :=
    .environment rfl rfl rfl picture
  exact (drawn.append_smooth .line).append_smooth (t := command "vspace*" "2.4cm") rfl

def ExecutiveBlue.ornament : Tex :=
  "\n" ++ control "hfill" ++ "\n" ++ portrait ++ "\n\n" ++ command "vspace" "6pt" ++ "\n"
    ++ braced (command "color" "executiveblue"
      ++ declare "rule" [braced (control "linewidth"), braced "1.4pt"])

theorem ExecutiveBlue.header_eq (m : Masthead) : header m =
    environment "minipage" (bracketed "c" ++ braced ("0.72" ++ control "textwidth"))
      (joinPresent (breakLine "4pt") (executiveLines m
        (control "Huge" ++ control "bfseries" ++ command "color" "executiveblue")
        (control "large" ++ command "color" "darkgray") (control "small"))) ++ ornament := by
  simp only [header, ornament, executiveLines, List.append_assoc]
  rfl

theorem ExecutiveBlue.composed_header (composes : m.Composes) : Composed "4pt" (header m) [] := by
  have rest : Smooth ornament := by decide +kernel
  rw [header_eq]
  refine .append_smooth (.environment rfl rfl rfl (composed_spacedLines ?_)) rest
  exact field_executiveLines composes rfl rfl rfl

def ExecutiveGray.ornament : Tex :=
  "\n" ++ control "hfill" ++ "\n" ++ portrait

theorem ExecutiveGray.header_eq (m : Masthead) : header m =
    environment "minipage" (bracketed "c" ++ braced ("0.75" ++ control "textwidth"))
      (joinPresent (breakLine "3pt") (executiveLines m
        (control "LARGE" ++ control "bfseries" ++ command "color" "darkgray")
        (command "color" "headergray") (control "footnotesize" ++ command "color" "textgray")))
      ++ ornament := by
  simp only [header, ornament, executiveLines, List.append_assoc]
  rfl

theorem ExecutiveGray.composed_header (composes : m.Composes) : Composed "3pt" (header m) [] := by
  have rest : Smooth ornament := by decide
  rw [header_eq]
  refine .append_smooth (.environment rfl rfl rfl (composed_spacedLines ?_)) rest
  exact field_executiveLines composes rfl rfl rfl

end Vitae.Layout
