import Vitae.Proofs.Layout.Source

namespace Vitae

open Text Tex

/-! ## Places that a reading comes to -/

namespace Tex

variable {g : Dialect} {s t u : Tex}

/-- Reading the text, one comes to a place where the second text is next. -/
def Visits (g : Dialect) (s u : Tex) : Prop :=
  ∀ fs k, ∃ gs r, Reads g ⟨fs, s ++ k⟩ ⟨gs, u ++ r⟩

theorem Visits.refl (u : Tex) : Visits g u u :=
  fun fs k => ⟨fs, k, .refl⟩

theorem Visits.append_left (hs : Markup g s) (h : Visits g t u) : Visits g (s ++ t) u := by
  intro fs k
  obtain ⟨gs, r, reads⟩ := h fs k
  rw [List.append_assoc]
  exact ⟨gs, r, (hs fs (t ++ k)).trans reads⟩

theorem Visits.append_right (h : Visits g s u) (t : Tex) : Visits g (s ++ t) u := by
  intro fs k
  rw [List.append_assoc]
  exact h fs (t ++ k)

theorem Visits.join {separator p : Tex} {parts : List Tex} (between : Markup g separator)
    (markup : ∀ q ∈ parts, Markup g q) (mem : p ∈ parts) (h : Visits g p u) :
    Visits g (Tex.join separator parts) u := by
  induction parts with
  | nil => simp at mem
  | cons q parts ih =>
      rw [List.forall_mem_cons] at markup
      rcases List.mem_cons.mp mem with rfl | later
      · rw [join_cons]
        exact h.append_right _
      · cases parts with
        | nil => simp at later
        | cons next parts =>
            rw [join_cons_cons]
            exact .append_left (markup.1.append between) (ih markup.2 later)

theorem Visits.joinPresent {separator p : Tex} {parts : List Tex} (between : Markup g separator)
    (markup : ∀ q ∈ parts, Markup g q) (mem : p ∈ parts) (ne : p ≠ []) (h : Visits g p u) :
    Visits g (Tex.joinPresent separator parts) u :=
  .join between (forall_mem_present fun q memQ _ => markup q memQ) (by simp [mem, ne]) h

theorem Visits.mem_lex (h : Visits g s ("\\\\\n" ++ u)) (k : Tex) :
    ∃ r, (.symbol '\\', '\n' :: (u ++ r)) ∈ lex (s ++ k) := by
  obtain ⟨gs, r, reads⟩ := h [] k
  obtain ⟨front, cut, -⟩ := reads.lex
  have break_ : lex ("\\\\\n".toList ++ u ++ r) = (.symbol '\\', '\n' :: (u ++ r)) :: lex ('\n' :: (u ++ r)) :=
    lex_symbol rfl _
  simp only at cut
  rw [cut, break_]
  exact ⟨r, by simp⟩

theorem Visits.readsOption (h : Visits g s ("\\\\\n" ++ u)) (option : startsOption u = true) (k : Tex) :
    ∃ x ∈ lex (s ++ k), ∃ t, LooksAhead x.1 x.2 t ∧ ReadsOption t := by
  obtain ⟨r, mem⟩ := h.mem_lex k
  have behind : startsOption ('\n' :: (u ++ r)) = true := by
    rw [startsOption_line, startsOption_append]
    split
    · rename_i blank
      simp only [List.isEmpty_iff] at blank
      simp [startsOption, blank] at option
    · exact option
  exact ⟨(.symbol '\\', '\n' :: (u ++ r)), mem, _, .lineBreak rfl, startsOption_iff.mp behind⟩

end Tex

/-! ## Bare dates -/

variable {d : Document} {e : Education}

theorem Education.isBlank_of_hasBareDates (h : e.hasBareDates = true) : e.isBlank = false := by
  simp only [hasBareDates, Bool.and_eq_true, Bool.not_eq_true'] at h
  simp [isBlank, isBlankString, h.1.1]

namespace Layout

namespace ExecutiveBlue

theorem visits_educationHeader (h : e.hasBareDates = true) :
    Visits (dialect .executiveBlue False) (educationHeader e.entryHeader)
      ("\\\\\n" ++ e.entryHeader.dates) := by
  simp only [Education.hasBareDates, Bool.and_eq_true, Bool.not_eq_true'] at h
  obtain ⟨⟨degree, institution⟩, option⟩ := h
  have title : styled "textbf" e.entryHeader.title ≠ [] := by
    simp [Education.entryHeader, escapeTrimmed_eq_nil_iff, degree]
  have organization : styled "textit" e.entryHeader.organization = [] := by
    simp [Education.entryHeader, escapeTrimmed_eq_nil_iff, institution]
  have dates : e.entryHeader.dates ≠ [] := by
    intro empty
    rw [show dateRange e.startDate.toList e.endDate.toList = [] from empty] at option
    cases option
  rw [educationHeader, organization, joinPresent_cons_nil, joinPresent_singleton,
    joinPresent_pair _ title dates, List.append_assoc]
  exact .append_left (Block.styled (mem_commands rfl) (.escape _)).markup (.refl _)

theorem visits_render (h : e.hasBareDates = true) :
    Visits (dialect .executiveBlue False) (Education.render style.education e)
      ("\\\\\n" ++ e.entryHeader.dates) := by
  unfold Education.render
  simp only
  split
  · exact visits_educationHeader h
  · rw [List.append_assoc]
    exact (visits_educationHeader h).append_right _

theorem visits_section (shown : d.isHidden .education = false) (mem : e ∈ d.education)
    (h : e.hasBareDates = true) :
    ∃ s, style.section? d .education = some s ∧
      Visits (dialect .executiveBlue False) s ("\\\\\n" ++ e.entryHeader.dates) := by
  have fits : style.Fits (dialect .executiveBlue False) d := fits_style False.elim
  have entries := Education.passage_entries (fits.education shown)
  have entry : Education.render style.education e ∈
      (d.education.filter (!·.isBlank)).map (Education.render style.education) :=
    List.mem_map_of_mem (by simp [mem, Education.isBlank_of_hasBareDates h])
  have ne : style.body d .education ≠ [] :=
    join_ne_nil (fun q memQ => (entries q memQ).2) (List.ne_nil_of_mem entry)
  have visitsBody : Visits (dialect .executiveBlue False) (style.body d .education)
      ("\\\\\n" ++ e.entryHeader.dates) :=
    .join (fits.education shown).separator (fun q memQ => (entries q memQ).1.markup) entry
      (visits_render h)
  have heading := (fits.heading (some .education) (escapeTrimmed (d.heading .education).toList)
    (.escape _)).1.markup
  refine ⟨style.block (some .education) (escapeTrimmed (d.heading .education).toList)
    (style.body d .education), ?_, .append_left (heading.append .line) visitsBody⟩
  simp [SectionStyle.section?, shown, ne]

theorem visits_body (shown : d.isHidden .education = false) (mem : e ∈ d.education)
    (h : e.hasBareDates = true) :
    Visits (dialect .executiveBlue False) (body d) ("\\\\\n" ++ e.entryHeader.dates) := by
  have fits : style.Fits (dialect .executiveBlue False) d := fits_style False.elim
  obtain ⟨s, eq, visits⟩ := visits_section shown mem h
  have memS : s ∈ order.filterMap (style.section? d) :=
    List.mem_filterMap.mpr ⟨.education, by decide, eq⟩
  have visitsSections : Visits (dialect .executiveBlue False) (style.sections d order)
      ("\\\\\n" ++ e.entryHeader.dates) :=
    .join (.text rfl) (fun q memQ => (fits.mem_sections q memQ).1.markup) memS visits
  have ne : style.sections d order ≠ [] :=
    join_ne_nil (fun q memQ => (fits.mem_sections q memQ).2.ne_nil) (List.ne_nil_of_mem memS)
  refine .joinPresent (.text rfl) ?_ (by simp) ne visitsSections
  simp only [List.forall_mem_cons, List.not_mem_nil, false_implies, implies_true, and_true]
  exact ⟨(block_header (Masthead.fits_ofIdentity _)).markup, (fits.sections _).1.markup,
    (fits.customSections _).markup⟩

theorem visits_inside (shown : d.isHidden .education = false) (mem : e ∈ d.education)
    (h : e.hasBareDates = true) :
    Visits (dialect .executiveBlue False) (inside .executiveBlue d) ("\\\\\n" ++ e.entryHeader.dates) := by
  have gap : Markup (dialect .executiveBlue False) "\n\n".toList := .text rfl
  have block : Block (dialect .executiveBlue False) (body d) := block_body False.elim
  rw [inside, Layout.body, Text.trim_of_solid block.solid]
  exact (Visits.append_left gap (visits_body shown mem h)).append_right _

theorem readsOption_of_hasBareDates (h : d.hasBareDates = true) :
    ∃ x ∈ lex (render .executiveBlue d), ∃ t, LooksAhead x.1 x.2 t ∧ ReadsOption t := by
  simp only [Document.hasBareDates, Bool.and_eq_true, Bool.not_eq_true', List.any_eq_true] at h
  obtain ⟨shown, e, mem, bare⟩ := h
  have option : startsOption e.entryHeader.dates = true := by
    simp only [Education.hasBareDates, Bool.and_eq_true] at bare
    exact bare.2
  obtain ⟨x, memX, reads⟩ := (visits_inside shown mem bare).readsOption option (closing "document")
  exact ⟨x, (passesTo_inside .executiveBlue d False).subset memX, reads⟩

end ExecutiveBlue

/-! ## The exact condition -/

/-- No user text is read as an optional argument or a star behind a line break, an item or the opening of
columns if and only if no dates are bare in the blue executive layout. -/
theorem not_readsOption_render_iff (l : Layout) (d : Document) :
    (∀ x ∈ lex (l.render d), ∀ t, LooksAhead x.1 x.2 t → ¬ReadsOption t) ↔
      ¬(l = .executiveBlue ∧ d.hasBareDates = true) := by
  constructor
  · rintro none ⟨rfl, bare⟩
    obtain ⟨x, mem, t, looks, reads⟩ := ExecutiveBlue.readsOption_of_hasBareDates bare
    exact none x mem t looks reads
  · intro guard x mem
    have passes : (l.dialect (l.Guarded d)).Passes x := passes_of_mem_lex (fun h => h) x mem
    exact passes.2 guard

theorem readsOption_bracketedDates :
    ∃ x ∈ lex (render .executiveBlue { education := [{ degree := "BSc", startDate := "[2019]" }] }),
      ∃ t, LooksAhead x.1 x.2 t ∧ ReadsOption t :=
  ExecutiveBlue.readsOption_of_hasBareDates (by decide)

end Layout

end Vitae
