import Vitae.Proofs.Reading.Body
import Vitae.Proofs.Section.Composition

namespace Vitae

open Text Tex Body

variable {length : String}

/-! ## Free texts and links -/

theorem smooth_bulletList (content : List Char) : Smooth (bulletList content) := by
  apply Smooth.itemize
  intro i mem
  obtain ⟨line, -, rfl⟩ := List.mem_map.mp mem
  exact .item (.guardLineStart (.escape line))

theorem smooth_linkList (links : List Link) : Smooth (linkList links) := by
  apply Smooth.itemize
  intro i mem
  obtain ⟨l, -, shown⟩ := List.mem_filterMap.mp mem
  unfold linkItem? at shown
  dsimp only at shown
  split at shown
  · cases shown
  · obtain ⟨target, address, rfl⟩ := Option.map_eq_some_iff.mp shown
    exact .item (.href (Target.hardened_url? address) (.escape _))

/-! ## References -/

theorem line_contactLine {line : List Char} (solid : Solid line) (ne : line ≠ []) :
    Line (contactLine line) := by
  unfold contactLine
  split
  · case h_1 number _ =>
    have sign : Line (control "faPhone" ++ control " ") :=
      ⟨rfl, rfl, "\\faPhone".toList, '\\', [' '], rfl, rfl, by decide⟩
    -- Without a number the sign and the blank behind it are the line.
    by_cases missing : escapeTrimmed number = []
    · rw [missing, List.append_nil]
      exact sign
    · exact sign.append (.escapeTrimmed number) (Field.escapeTrimmed number missing).last
  · split
    · case h_1 address _ =>
      split
      · case h_1 target mail =>
        have link : Line (Target.href target (escapeTrimmed address)) :=
          .href (Target.hardened_mailto? mail) (.escapeTrimmed address)
        have sign : Smooth (control "faEnvelope" ++ control " ") := rfl
        have first : startsLine (control "faEnvelope" ++ control " ") = true := rfl
        exact ⟨sign.append link.smooth, startsLine_append first _, link.last.behind _⟩
      · case h_2 => exact ⟨rfl, rfl, "\\faEnvelop".toList, 'e', [], rfl, rfl, List.not_mem_nil⟩
    · case h_2 => exact .guardLineStart (.escape solid ne)

theorem composed_recordBlock {r : Record} (h : ∀ line ∈ r, Solid line ∧ line ≠ []) :
    Composed length (recordBlock r) [] := by
  cases r with
  | nil => exact .smooth .nil
  | cons name rest =>
    rw [List.forall_mem_cons] at h
    refine .lines List.mem_cons_self (List.forall_mem_cons.mpr ⟨.command rfl rfl (.escape name), ?_⟩)
    intro p mem
    obtain ⟨line, memLine, rfl⟩ := List.mem_map.mp mem
    obtain ⟨solid, ne⟩ := h.2 line memLine
    exact line_contactLine solid ne

theorem composed_smallPrint {s : Tex} (h : Composed length s []) :
    Composed length (control "small" ++ "\n" ++ s) [] :=
  .smooth_append (s := control "small" ++ "\n") rfl h

theorem composed_halfWidth {block : Tex} (h : Composed length block []) :
    Composed length (halfWidth block) [] :=
  .environment rfl rfl rfl (composed_smallPrint h)

theorem composed_rows {rs : List Record} (h : ∀ r ∈ rs, ∀ line ∈ r, Solid line ∧ line ≠ []) :
    ∀ row ∈ rows rs, Composed length row [] := by
  fun_induction rows rs with
  | case1 => simp
  | case2 r =>
    have record : Composed length (recordBlock r) [] := composed_recordBlock (h r (by simp))
    rw [List.forall_mem_singleton]
    exact .braced ((composed_smallPrint record).append_smooth .line)
  | case3 l r rs ih =>
    simp only [List.forall_mem_cons] at h
    obtain ⟨first, second, others⟩ := h
    have left : Composed length (halfWidth (recordBlock l)) [] :=
      composed_halfWidth (composed_recordBlock first)
    have right : Composed length (halfWidth (recordBlock r)) [] :=
      composed_halfWidth (composed_recordBlock second)
    have between : Smooth ("\n" ++ control "hfill" ++ "\n") := rfl
    rw [List.forall_mem_cons]
    refine ⟨?_, ih others⟩
    simpa [List.append_assoc] using (left.append_smooth between).append right

theorem composed_format (content : List Char) (types : FieldTypes) (links : List Link) :
    Composed length (format content types links) [] := by
  have text : Composed length (textBody content types) [] := by
    unfold textBody
    split
    · exact .smooth (smooth_bulletList content)
    · split
      · exact .joinPlain rfl (composed_rows solid_of_mem_records)
      · exact .smooth (.escapeTrimmed content)
  have list : Composed length (linkBody types links) [] := by
    unfold linkBody
    split
    · exact .smooth (smooth_linkList links)
    · exact .smooth .nil
  have both := Composed.pair .paragraph text list
  exact both

/-! ## Entries -/

structure EntryHeader.Composes (h : EntryHeader) : Prop where
  title : Field h.title
  organization : Field h.organization
  dates : Field h.dates

theorem field_dateRange (start finish : List Char) : Field (dateRange start finish) :=
  .pair rfl (.escapeTrimmed start) (.escapeTrimmed finish)

theorem Experience.composes_entryHeader (e : Experience) : e.entryHeader.Composes :=
  ⟨.escapeTrimmed _, .escapeTrimmed _, field_dateRange _ _⟩

theorem Education.composes_entryHeader (e : Education) : e.entryHeader.Composes :=
  ⟨.escapeTrimmed _, .escapeTrimmed _, field_dateRange _ _⟩

structure ExperienceStyle.Composes (length : String) (style : ExperienceStyle) : Prop where
  header : ∀ h : EntryHeader, h.Composes → Composed length (style.header h) []
  listOpening : Smooth style.listOpening
  separator : Smooth style.separator

structure EducationStyle.Composes (length : String) (style : EducationStyle) : Prop where
  header : ∀ h : EntryHeader, h.Composes → Composed length (style.header h) []
  activities : ∀ text, Smooth text → Smooth (style.activities text)
  separator : Smooth style.separator

theorem Experience.composed_render {style : ExperienceStyle} (composes : style.Composes length)
    (e : Experience) : Composed length (render style e) [] := by
  have header := composes.header _ e.composes_entryHeader
  unfold render
  split
  · exact header
  · have details : Smooth (join "\n" (e.details.map detailItem)) := by
      apply Smooth.join .line
      intro i mem
      obtain ⟨detail, -, rfl⟩ := List.mem_map.mp mem
      exact .item (.guardLineStart (.escape _))
    have opened := ((header.append_smooth .line).append_smooth composes.listOpening).append_smooth .line
    exact ((opened.append_smooth details).append_smooth .line).append_smooth (t := closing "itemize") rfl

theorem Education.composed_render {style : EducationStyle} (composes : style.Composes length)
    (e : Education) : Composed length (render style e) [] := by
  have header := composes.header _ e.composes_entryHeader
  unfold render
  dsimp only
  split
  · exact header
  · exact (header.append_smooth .line).append_smooth (composes.activities _ (.escapeTrimmed _))

/-! ## Sections -/

namespace SectionStyle

/-- Apart from the headings of sections, the style adds smooth texts and blocks of lines only. -/
structure Composes (length : String) (style : SectionStyle) : Prop where
  heading : ∀ key title, ∃ icon, Smooth icon ∧
    style.heading key title = command "section*" (icon ++ title)
  wrap : ∀ key body, Composed length body [] → Composed length (style.wrap key body) []
  experience : style.experience.Composes length
  education : style.education.Composes length

variable {style : SectionStyle}

theorem composed_body (composes : style.Composes length) (d : Document) (k : SectionKey) :
    Composed length (style.body d k) [] := by
  cases k with
  | experience =>
    apply Composed.joinPlain composes.experience.separator
    intro p mem
    obtain ⟨e, -, rfl⟩ := List.mem_map.mp mem
    exact Experience.composed_render composes.experience e
  | education =>
    apply Composed.joinPlain composes.education.separator
    intro p mem
    obtain ⟨e, -, rfl⟩ := List.mem_map.mp mem
    exact Education.composed_render composes.education e
  | _ => exact composed_format _ _ _

theorem composed_block (composes : style.Composes length) (key : Option SectionKey) {title body : Tex}
    (smoothTitle : Smooth title) (composedBody : Composed length body []) :
    Composed length (style.block key title body) [style.block key title body] := by
  obtain ⟨icon, smoothIcon, heading⟩ := composes.heading key title
  rw [block, heading, List.append_assoc]
  exact .block (smoothIcon.append smoothTitle) (.smooth_append .line (composes.wrap key body composedBody))

theorem composed_section? (composes : style.Composes length) (d : Document) {k : SectionKey} {s : Tex}
    (shown : style.section? d k = some s) : Composed length s [s] := by
  unfold section? at shown
  split at shown
  · cases shown
  · split at shown
    · cases shown
    · cases shown
      exact composed_block composes _ (.escapeTrimmed _) (composed_body composes d k)

theorem composed_custom? (composes : style.Composes length) {c : CustomSection} {s : Tex}
    (shown : style.custom? c = some s) : Composed length s [s] := by
  unfold custom? at shown
  dsimp only at shown
  split at shown
  · cases shown
  · cases shown
    exact composed_block composes _ (.escapeTrimmed _) (composed_format _ _ _)

theorem composed_sections (composes : style.Composes length) (d : Document) (keys : List SectionKey) :
    Composed length (style.sections d keys) (keys.filterMap (style.section? d)) := by
  apply Composed.joinBlocks .paragraph
  intro s mem
  obtain ⟨k, -, shown⟩ := List.mem_filterMap.mp mem
  exact composed_section? composes d shown

theorem composed_customSections (composes : style.Composes length) (l : List CustomSection) :
    Composed length (style.customSections l) (l.filterMap style.custom?) := by
  apply Composed.joinBlocks .paragraph
  intro s mem
  obtain ⟨c, -, shown⟩ := List.mem_filterMap.mp mem
  exact composed_custom? composes shown

end SectionStyle

end Vitae
