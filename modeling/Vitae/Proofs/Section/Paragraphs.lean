import Vitae.Proofs.Body.Records
import Vitae.Proofs.Layout.Composition
import Vitae.Proofs.Section.Form
import Vitae.Proofs.Tex.Arguments

namespace Vitae

open Text Tex

/-! ## Texts in arguments -/

def Body.argumentTexts (types : FieldTypes) (links : List Link) : List String :=
  if types.contains .hyperlink then (links.filter fun l => (linkItem? l).isSome).map Link.label else []

namespace Layout

def experienceArguments {α : Type} (l : Layout) (title organization dates : List α) : List α :=
  match l with
  | .classic | .modern => title ++ organization ++ dates
  | .detailed => title ++ organization
  | .executiveBlue | .executiveGray => title ++ dates

def educationArguments {α : Type} (l : Layout) (title organization dates : List α) : List α :=
  match l with
  | .classic | .executiveGray => title ++ dates
  | .modern => title ++ organization ++ dates
  | .detailed | .executiveBlue => title ++ organization

def setsActivitiesInArgument : Layout → Bool
  | .classic | .modern | .executiveGray => true
  | .detailed | .executiveBlue => false

def experienceTexts (l : Layout) (e : Experience) : List String :=
  l.experienceArguments [e.position] [e.company] [e.startDate, e.endDate]

def educationTexts (l : Layout) (e : Education) : List String :=
  l.educationArguments [e.degree] [e.institution] [e.startDate, e.endDate] ++
    if l.setsActivitiesInArgument then [e.activities] else []

def bodyTexts (l : Layout) (d : Document) : SectionKey → List String
  | .experience => (d.experience.filter (!·.isBlank)).flatMap l.experienceTexts
  | .education => (d.education.filter (!·.isBlank)).flatMap l.educationTexts
  | k => Body.argumentTexts (d.fieldTypeSet k) (d.linkList k)

end Layout

variable {length : String}

/-! ## Bodies -/

namespace Tex.Encloses

theorem bulletList (content : List Char) : Encloses (Body.bulletList content) [] := by
  have mark : Mute "  \\item ".toList := by decide
  have items : ∀ i ∈ (Body.bulletLines content).map Body.bulletItem, Encloses i [] :=
    List.forall_mem_map.mpr fun line _ => mute_append mark (guardLineStart (.mute (.escape line)))
  exact itemize (joinPlain (by decide) items)

theorem linkBody (types : FieldTypes) (links : List Link) :
    Encloses (Body.linkBody types links) (Body.argumentTexts types links) := by
  have mark : Mute "  \\item ".toList := by decide
  unfold Body.linkBody Body.argumentTexts
  split
  · rw [List.map_eq_flatMap, Body.linkList]
    refine itemize (joinSome (by decide) fun l _ i shown => ?_)
    unfold Body.linkItem? at shown
    dsimp only at shown
    split at shown
    · cases shown
    · obtain ⟨target, address, rfl⟩ := Option.map_eq_some_iff.mp shown
      exact (href (Target.hardened_url? address) (.escapeTrimmed l.label)).mute_append mark
  · exact nil

theorem contactLine {line : List Char} (whole : '\n' ∉ line) : Encloses (Body.contactLine line) [] := by
  unfold Body.contactLine
  split
  · case h_1 number _ =>
    have sign : Mute (control "faPhone" ++ control " ") := by decide
    exact .mute (sign.append (.escape (trim number)))
  · split
    · case h_1 address behind =>
      split
      · case h_1 target mail =>
        have sign : Mute (control "faEnvelope" ++ control " ") := by decide
        have line : Bears (escapeTrimmed address) [] :=
          .line fun mem => whole (Target.mem_of_stripPrefixNoCase? behind (mem_of_mem_trim mem))
        exact (href (Target.hardened_mailto? mail) line).mute_append sign
      · exact .mute (by decide)
    · exact .guardLineStart (.mute (.escape line))

theorem recordBlock {r : Body.Record} (h : ∀ line ∈ r, '\n' ∉ line) : Encloses (Body.recordBlock r) [] := by
  cases r with
  | nil => exact nil
  | cons name rest =>
    rw [List.forall_mem_cons] at h
    have lines : ∀ p ∈ Tex.command "textbf" (escape name) :: rest.map Body.contactLine, Encloses p [] := by
      refine List.forall_mem_cons.mpr ⟨command (by decide) (.line h.1), ?_⟩
      exact List.forall_mem_map.mpr fun line mem => contactLine (h.2 line mem)
    exact joinPlain (by decide) lines

theorem halfWidth {block : Tex} (h : Encloses block []) : Encloses (Body.halfWidth block) [] := by
  have small : Mute (control "small" ++ "\n") := by decide
  exact environment (by decide) (by decide) (h.mute_append small)

theorem rows {rs : List Body.Record} (h : ∀ r ∈ rs, ∀ line ∈ r, '\n' ∉ line) :
    ∀ row ∈ Body.rows rs, Encloses row [] := by
  have small : Mute (control "small" ++ "\n") := by decide
  fun_induction Body.rows rs with
  | case1 => exact List.forall_mem_nil _
  | case2 r =>
    have record : Encloses (Body.recordBlock r) [] := recordBlock (h r List.mem_cons_self)
    rw [List.forall_mem_singleton]
    exact ((record.mute_append small).append_mute (by decide)).braced
  | case3 l r rs ih =>
    rw [List.forall_mem_cons, List.forall_mem_cons] at h
    have fill : Mute ("\n" ++ control "hfill" ++ "\n") := by decide
    have beside : Encloses _ [] := ((halfWidth (recordBlock h.1)).append_mute fill).append
      (halfWidth (recordBlock h.2.1))
    refine List.forall_mem_cons.mpr ⟨?_, ih h.2.2⟩
    simpa only [List.append_assoc] using beside

theorem format (content : List Char) (types : FieldTypes) (links : List Link) :
    Encloses (Body.format content types links) (Body.argumentTexts types links) := by
  have text : Encloses (Body.textBody content types) [] := by
    unfold Body.textBody
    split
    · exact bulletList content
    · split
      · have whole : ∀ r ∈ Body.records content, ∀ line ∈ r, '\n' ∉ line := fun r mem line memLine =>
          ((Body.isRecord_of_mem_records r mem).lines line memLine).whole
        exact joinPlain (by decide) (rows whole)
      · exact .mute (.escape _)
  exact pair (by decide) text (linkBody types links)

end Tex.Encloses

/-! ## Entries -/

theorem Tex.Bears.dateRange (start finish : String) :
    Bears (dateRange start.toList finish.toList) [start, finish] := by
  have first := escapeTrimmed start
  have last := escapeTrimmed finish
  have dash : Mute " -- ".toList := by decide
  have torn : (∃ text ∈ [start, finish], IsTorn text) ↔
      HasBlankLine (Tex.escapeTrimmed start.toList) ∨ HasBlankLine (Tex.escapeTrimmed finish.toList) := by
    rw [first.torn, last.torn]
    simp
  have nothing : ¬HasBlankLine [] := not_hasBlankLine List.not_mem_nil
  rw [Vitae.dateRange, Tex.joinPresent_cons, joinPresent_singleton, Tex.behind]
  split
  · case isTrue empty =>
    rw [Bool.or_eq_true, List.isEmpty_iff, List.isEmpty_iff] at empty
    refine ⟨first.mute.append last.mute, ?_⟩
    rw [torn]
    rcases empty with empty | empty <;> simp [empty, nothing]
  · refine ⟨first.mute.append (dash.append last.mute), ?_⟩
    -- the dash can be seen, so that no blank line goes over it
    have whole : Tex.escapeTrimmed start.toList ++ (" -- ".toList ++ Tex.escapeTrimmed finish.toList) =
        (Tex.escapeTrimmed start.toList ++ [' ']) ++ '-' :: ("- ".toList ++ Tex.escapeTrimmed finish.toList) := by
      simp
    rw [whole, hasBlankLine_append_visible (by decide), hasBlankLine_append_line (by decide),
      hasBlankLine_append_of_not_mem (by decide), torn]

namespace Layout

theorem mute_fill : Mute (" " ++ control "hfill" ++ " ") := by
  decide

section

variable {h : EntryHeader} {titles organizations dates : List String}

theorem encloses_oneLine {separator title organization finish : Tex} (between : Mute separator)
    (first : Encloses title titles) (second : Encloses organization organizations)
    (last : Encloses finish dates) :
    Encloses (joinPresent (" " ++ control "hfill" ++ " ") [joinPresent separator [title, organization], finish])
      (titles ++ organizations ++ dates) :=
  .pair mute_fill (.pair between first second) last

theorem encloses_twoLines {title organization finish : Tex} (first : Encloses title titles)
    (second : Encloses organization organizations) (last : Encloses finish dates) :
    Encloses (joinPresent "\\\\\n" [title, joinPresent (" " ++ control "hfill" ++ " ") [organization, finish]])
      (titles ++ organizations ++ dates) := by
  rw [List.append_assoc titles]
  exact .pair (by decide) first (.pair mute_fill second last)

theorem encloses_experienceHeader (l : Layout) (title : Bears h.title titles)
    (organization : Bears h.organization organizations) (finish : Bears h.dates dates) :
    Encloses (l.style.experience.header h) (l.experienceArguments titles organizations dates) := by
  have bold := Encloses.styled (w := "textbf") (by decide) title
  have italic := Encloses.styled (w := "textit") (by decide) organization
  have italicDates := Encloses.styled (w := "textit") (by decide) finish
  have plain := Encloses.mute organization.mute
  cases l with
  | classic => exact encloses_oneLine (by decide) bold italic (.styled (by decide) finish)
  | modern =>
    have colour : Mute (command "textcolor" "primaryblue") := by decide
    have boldOrganization := Encloses.styled (w := "textbf") (by decide) organization
    exact encloses_twoLines bold (boldOrganization.coloured colour) italicDates
  | detailed =>
    have small : Mute (control "footnotesize" ++ " ") := by decide
    have header := encloses_twoLines bold italic ((Encloses.mute finish.mute).grouped small)
    rw [List.append_nil] at header
    exact header
  | executiveBlue =>
    have bar : Mute " | ".toList := by decide
    have colour : Mute (command "textcolor" "executivebluelight") := by decide
    have header := encloses_oneLine bar bold (plain.coloured colour) italicDates
    rw [List.append_nil] at header
    exact header
  | executiveGray =>
    have comma : Mute ", ".toList := by decide
    have header := encloses_oneLine comma bold plain italicDates
    rw [List.append_nil] at header
    exact header

theorem encloses_educationHeader (l : Layout) (title : Bears h.title titles)
    (organization : Bears h.organization organizations) (finish : Bears h.dates dates) :
    Encloses (l.style.education.header h) (l.educationArguments titles organizations dates) := by
  have bold := Encloses.styled (w := "textbf") (by decide) title
  cases l with
  | classic =>
    have dash : Mute " -- ".toList := by decide
    have boldDates := Encloses.styled (w := "textbf") (by decide) finish
    have header := encloses_oneLine dash bold (.mute organization.mute) boldDates
    rw [List.append_nil] at header
    exact header
  | executiveBlue =>
    have header := encloses_twoLines bold (Encloses.styled (w := "textit") (by decide) organization)
      (.mute finish.mute)
    rw [List.append_nil] at header
    exact header
  | modern => exact encloses_experienceHeader .modern title organization finish
  | detailed => exact encloses_experienceHeader .detailed title organization finish
  | executiveGray => exact encloses_experienceHeader .executiveGray title organization finish

end

/-! ### Blocks of entries -/

theorem encloses_experience (l : Layout) (e : Experience) :
    Encloses (e.render l.style.experience) (l.experienceTexts e) := by
  have title : Bears e.entryHeader.title [e.position] := .escapeTrimmed e.position
  have organization : Bears e.entryHeader.organization [e.company] := .escapeTrimmed e.company
  have dates : Bears e.entryHeader.dates [e.startDate, e.endDate] := .dateRange e.startDate e.endDate
  have header := l.encloses_experienceHeader title organization dates
  have listOpens : Mute ("\n" ++ opening "itemize" ++ "\n") := by decide
  have listCloses : Mute ("\n" ++ closing "itemize") := by decide
  have mark : Mute "  \\item ".toList := by decide
  have items : Encloses (join "\n" (e.details.map detailItem)) [] :=
    .joinPlain (by decide) (List.forall_mem_map.mpr fun _ _ => .mute_append mark (.guardLineStart (.mute (.escape _))))
  unfold Experience.render
  split
  · exact header
  · have list := (items.mute_append listOpens).append_mute listCloses
    have block := header.append list
    rw [List.append_nil] at block
    rw [l.listOpening_eq, experienceTexts]
    simpa only [List.append_assoc] using block

theorem encloses_activities (l : Layout) (e : Education) :
    Encloses (l.style.education.activities (escapeTrimmed e.activities.toList))
      (if l.setsActivitiesInArgument then [e.activities] else []) := by
  generalize value : escapeTrimmed e.activities.toList = text
  have bears : Bears text [e.activities] := value ▸ .escapeTrimmed _
  have par : Mute (control "par") := by decide
  have label : Mute "Activities: ".toList := by decide
  have italic : Encloses (command "textit" ("Activities: " ++ text)) [e.activities] :=
    .command (by decide) (bears.behind label (by decide))
  cases l with
  | classic => exact italic.mute_append par
  | modern =>
    have small : Mute (control "small") := by decide
    exact (italic.mute_append small).braced.mute_append par
  | detailed =>
    have small : Mute (control "footnotesize" ++ " Activities: ") := by decide
    exact (Encloses.mute (small.append bears.mute)).braced.mute_append par
  | executiveBlue =>
    have small : Mute (control "small" ++ " Activities: ") := by decide
    exact (Encloses.mute (small.append bears.mute)).braced.mute_append par
  | executiveGray => exact italic.mute_append par

theorem encloses_education (l : Layout) (e : Education) :
    Encloses (e.render l.style.education) (l.educationTexts e) := by
  have title : Bears e.entryHeader.title [e.degree] := .escapeTrimmed e.degree
  have organization : Bears e.entryHeader.organization [e.institution] := .escapeTrimmed e.institution
  have dates : Bears e.entryHeader.dates [e.startDate, e.endDate] := .dateRange e.startDate e.endDate
  have header := l.encloses_educationHeader title organization dates
  have line : Mute "\n".toList := by decide
  unfold Education.render
  dsimp only
  split
  · case isTrue idle =>
    have blank : Bears [] [e.activities] := List.isEmpty_iff.mp idle ▸ .escapeTrimmed e.activities
    have nothing : Encloses [] (if l.setsActivitiesInArgument then [e.activities] else []) := by
      split
      · exact .nothing blank
      · exact .nil
    have block := header.append nothing
    rwa [List.append_nil] at block
  · exact (header.append_mute line).append (l.encloses_activities e)

theorem encloses_wrap (l : Layout) (key : Option SectionKey) {body : Tex} {texts : List String}
    (h : Encloses body texts) : Encloses (l.style.wrap key body) texts := by
  have line : Mute "\n".toList := by decide
  cases l with
  | classic => exact h
  | modern => exact h
  | detailed =>
    have small : Mute (control "small" ++ "\n") := by decide
    exact ((h.mute_append small).append_mute line).braced
  | executiveBlue =>
    change Encloses (ExecutiveBlue.wrap key body) texts
    unfold ExecutiveBlue.wrap
    split
    · exact .environment (by decide) (by decide) h.guardLineStart
    · exact h
  | executiveGray =>
    have small : Mute (control "footnotesize" ++ command "color" "textgray" ++ "\n") := by decide
    have print := ((h.mute_append small).append_mute line).braced
    change Encloses (ExecutiveGray.wrap key body) texts
    unfold ExecutiveGray.wrap
    dsimp only
    split
    · exact .environment (by decide) (by decide) print
    · exact print

theorem mute_icon (l : Layout) (key : Option SectionKey) : Mute (l.icon key) ∧ '\n' ∉ l.icon key := by
  have nothing : Mute [] ∧ '\n' ∉ ([] : Tex) := by decide
  have sign : Mute (sectionIcon key ++ control " ") ∧ '\n' ∉ sectionIcon key ++ control " " := by
    cases key with
    | none => decide
    | some k => cases k <;> decide
  cases l with
  | classic => exact sign
  | modern => exact sign
  | _ => exact nothing

theorem encloses_block (l : Layout) (key : Option SectionKey) (heading : String) {body : Tex} {texts : List String}
    (h : Encloses body texts) :
    Encloses (l.style.block key (escapeTrimmed heading.toList) body) (heading :: texts) := by
  obtain ⟨icon, whole⟩ := l.mute_icon key
  have line : Mute "\n".toList := by decide
  have title : Encloses (command "section*" (l.icon key ++ escapeTrimmed heading.toList)) [heading] :=
    .command (by decide) ((Bears.escapeTrimmed heading).behind icon whole)
  rw [SectionStyle.block, heading_eq]
  exact (title.append_mute line).append (l.encloses_wrap key h)

/-! ## Sections -/

theorem mute_separators (l : Layout) : Mute l.style.experience.separator ∧ Mute l.style.education.separator := by
  cases l <;> decide

theorem encloses_body (l : Layout) (d : Document) (k : SectionKey) :
    Encloses (l.style.body d k) (l.bodyTexts d k) := by
  cases k with
  | experience => exact .join l.mute_separators.1 fun e _ => l.encloses_experience e
  | education => exact .join l.mute_separators.2 fun e _ => l.encloses_education e
  | _ => exact .format _ _ _

theorem encloses_section? (l : Layout) {d : Document} {k : SectionKey} {s : Tex}
    (shown : l.style.section? d k = some s) : Encloses s (d.heading k :: l.bodyTexts d k) := by
  unfold SectionStyle.section? at shown
  split at shown
  · cases shown
  · split at shown
    · cases shown
    · cases shown
      exact l.encloses_block _ _ (l.encloses_body d k)

theorem encloses_custom? (l : Layout) {c : CustomSection} {s : Tex} (shown : l.style.custom? c = some s) :
    Encloses s (c.heading :: Body.argumentTexts c.fieldTypes c.links) := by
  unfold SectionStyle.custom? at shown
  dsimp only at shown
  split at shown
  · cases shown
  · cases shown
    exact l.encloses_block none c.heading (.format _ _ _)

end Layout

end Vitae
