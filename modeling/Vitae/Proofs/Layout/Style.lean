import Vitae.Proofs.Layout.Header
import Vitae.Proofs.Layout.Masthead
import Vitae.Proofs.Layout.Vocabulary

namespace Vitae

open Text Tex

/-! ## Dates at the start of a line -/

/-- There is a degree but no institution, and the dates look like an optional argument or a star. -/
def Education.hasBareDates (e : Education) : Bool :=
  !allBlank e.degree.toList && allBlank e.institution.toList
    && startsOption (dateRange e.startDate.toList e.endDate.toList)

def Document.hasBareDates (d : Document) : Bool :=
  !d.isHidden .education && d.education.any Education.hasBareDates

namespace Layout

def Guarded (l : Layout) (d : Document) : Prop :=
  ¬(l = .executiveBlue ∧ d.hasBareDates = true)

variable {guarded : Prop} {h : EntryHeader} {text body : Tex}

/-! ## The classic style -/

namespace Classic

theorem fits_experienceHeader (fits : h.Fits (dialect .classic guarded)) :
    HeaderFits (dialect .classic guarded) experienceHeader h :=
  .oneLine rfl (.text rfl) (.styled (mem_commands rfl) (.self fits.title))
    (.styled (mem_commands rfl) (.self fits.organization))
    (.styled (mem_commands rfl) (.self fits.dates))

theorem fits_educationHeader (fits : h.Fits (dialect .classic guarded)) :
    HeaderFits (dialect .classic guarded) educationHeader h :=
  .oneLine rfl (.text rfl) (.styled (mem_commands rfl) (.self fits.title))
    (.self fits.organization) (.styled (mem_commands rfl) (.self fits.dates))

theorem passage_activities (markup : Markup (dialect .classic guarded) text) :
    Passage (dialect .classic guarded) (activities text) ∧ activities text ≠ [] := by
  have line : Markup (dialect .classic guarded) ("Activities: " ++ text) := (Markup.text rfl).append markup
  exact passage_par (mem_commands rfl) (.command (mem_commands rfl) line.phrase) rfl

theorem fits_style (d : Document) : style.Fits (dialect .classic guarded) d where
  heading := block_iconHeading
  wrap _ _ passage ne := ⟨passage, ne⟩
  experience :=
    { header := fun _ => fits_experienceHeader
      listOpening := rfl
      separator := .text rfl }
  education _ :=
    { header := fun e _ => fits_educationHeader e.fits_entryHeader
      activities := fun _ => passage_activities
      separator := .gap (by decide) }

end Classic

/-! ## The modern style -/

namespace Modern

theorem fits_entryHeader (fits : h.Fits (dialect .modern guarded)) :
    HeaderFits (dialect .modern guarded) entryHeader h := by
  have organization : Shows (dialect .modern guarded)
      (coloured "primaryblue" (styled "textbf" h.organization)) h.organization :=
    .coloured (mem_commands rfl) (by decide)
      (.styled (mem_commands rfl) (.self fits.organization))
  have dates : Shows (dialect .modern guarded) (styled "textit" h.dates) h.dates :=
    .styled (mem_commands rfl) (.self fits.dates)
  refine .twoLines rfl (.styled (mem_commands rfl) (.self fits.title)) organization dates
    startsOption_styled fun _ => ?_
  exact startsOption_joinPresent (forall_mem_pair organization.block dates.block)
    (forall_mem_pair startsOption_coloured startsOption_styled)

theorem passage_activities (markup : Markup (dialect .modern guarded) text) :
    Passage (dialect .modern guarded) (activities text) ∧ activities text ≠ [] := by
  have line : Markup (dialect .modern guarded) ("Activities: " ++ text) := (Markup.text rfl).append markup
  have small : Markup (dialect .modern guarded)
      (control "small" ++ command "textit" ("Activities: " ++ text)) :=
    .word (mem_commands rfl) (.command (mem_commands rfl) line.phrase) rfl
  exact passage_par (mem_commands rfl) (.braced small.phrase) rfl

theorem fits_style (d : Document) : style.Fits (dialect .modern guarded) d where
  heading := block_iconHeading
  wrap _ _ passage ne := ⟨passage, ne⟩
  experience :=
    { header := fun _ => fits_entryHeader
      listOpening := rfl
      separator := .gap (by decide) }
  education _ :=
    { header := fun e _ => fits_entryHeader e.fits_entryHeader
      activities := fun _ => passage_activities
      separator := .gap (by decide) }

end Modern

/-! ## The detailed style -/

namespace Detailed

theorem fits_entryHeader (fits : h.Fits (dialect .detailed guarded)) :
    HeaderFits (dialect .detailed guarded) entryHeader h := by
  have organization : Shows (dialect .detailed guarded) (styled "textit" h.organization)
      h.organization :=
    .styled (mem_commands rfl) (.self fits.organization)
  have dates : Shows (dialect .detailed guarded) (grouped (control "footnotesize") h.dates) h.dates :=
    .grouped (markup_fixed rfl) (.self fits.dates)
  refine .twoLines rfl (.styled (mem_commands rfl) (.self fits.title)) organization dates
    startsOption_styled fun _ => ?_
  exact startsOption_joinPresent (forall_mem_pair organization.block dates.block)
    (forall_mem_pair startsOption_styled startsOption_grouped)

theorem passage_activities (markup : Markup (dialect .detailed guarded) text) :
    Passage (dialect .detailed guarded) (activities text) ∧ activities text ≠ [] := by
  have line : Markup (dialect .detailed guarded) (control "footnotesize" ++ " Activities: " ++ text) :=
    .append (markup_fixed rfl) markup
  exact passage_par (mem_commands rfl) (.braced line.phrase) rfl

theorem block_smallPrint (markup : Markup (dialect .detailed guarded) body) :
    Block (dialect .detailed guarded) (smallPrint body) :=
  .braced ((Markup.smallLine.append markup).append .line).phrase

theorem fits_style (d : Document) : style.Fits (dialect .detailed guarded) d where
  heading := block_plainHeading
  wrap _ _ passage _ := ⟨(block_smallPrint passage.markup).passage, braced_ne_nil _⟩
  experience :=
    { header := fun _ => fits_entryHeader
      listOpening := rfl
      separator := .text rfl }
  education _ :=
    { header := fun e _ => fits_entryHeader e.fits_entryHeader
      activities := fun _ => passage_activities
      separator := .text rfl }

end Detailed

/-! ## The blue executive style -/

namespace ExecutiveBlue

theorem fits_experienceHeader (fits : h.Fits (dialect .executiveBlue guarded)) :
    HeaderFits (dialect .executiveBlue guarded) experienceHeader h :=
  .oneLine rfl (.text rfl) (.styled (mem_commands rfl) (.self fits.title))
    (.coloured (mem_commands rfl) (by decide) (.self fits.organization))
    (.styled (mem_commands rfl) (.self fits.dates))

theorem startsOption_second {e : Education} (bare : e.hasBareDates = false)
    (title : e.entryHeader.title ≠ []) :
    startsOption (joinPresent (" " ++ control "hfill" ++ " ")
      [styled "textit" e.entryHeader.organization, e.entryHeader.dates]) = false := by
  by_cases organization : e.entryHeader.organization = []
  · rw [organization, styled, present_nil, joinPresent_cons_nil, joinPresent_singleton]
    simp only [Education.entryHeader, ne_eq, escapeTrimmed_eq_nil_iff] at title organization
    simpa [Education.hasBareDates, Education.entryHeader, title, organization] using bare
  · exact startsOption_joinPresent_cons (firm_styled organization)

theorem fits_educationHeader {e : Education} (guard : guarded → e.hasBareDates = false) :
    HeaderFits (dialect .executiveBlue guarded) educationHeader e.entryHeader := by
  have fits : e.entryHeader.Fits (dialect .executiveBlue guarded) := e.fits_entryHeader
  have organization : Shows (dialect .executiveBlue guarded)
      (styled "textit" e.entryHeader.organization) e.entryHeader.organization :=
    .styled (mem_commands rfl) (.self fits.organization)
  by_cases title : e.entryHeader.title = []
  · -- Without a degree there is one line only, and no line break in front of the dates.
    have eq : educationHeader e.entryHeader = joinPresent (" " ++ control "hfill" ++ " ")
        [joinPresent [] [[], styled "textit" e.entryHeader.organization], e.entryHeader.dates] := by
      rw [joinPresent_cons_nil, joinPresent_singleton, educationHeader, title, styled, present_nil,
        joinPresent_cons_nil, joinPresent_singleton]
    exact .oneLine eq .nil ⟨.nil, fun _ => title⟩ organization (.self fits.dates)
  · exact .twoLines rfl (.styled (mem_commands rfl) (.self fits.title)) organization
      (.self fits.dates) startsOption_styled fun guarded => startsOption_second (guard guarded) title

theorem passage_activities (markup : Markup (dialect .executiveBlue guarded) text) :
    Passage (dialect .executiveBlue guarded) (activities text) ∧ activities text ≠ [] := by
  have line : Markup (dialect .executiveBlue guarded) (control "small" ++ " Activities: " ++ text) :=
    .append (markup_fixed rfl) markup
  exact passage_par (mem_commands rfl) (.braced line.phrase) rfl

theorem passage_wrap (key : Option SectionKey) (body : Tex)
    (passage : Passage (dialect .executiveBlue guarded) body) (ne : body ≠ []) :
    Passage (dialect .executiveBlue guarded) (wrap key body) ∧ wrap key body ≠ [] := by
  unfold wrap
  split
  · have columns : Block (dialect .executiveBlue guarded)
        (environment "multicols" (braced "3") (guardLineStart body)) :=
      .columns (by decide) (Markup.guardLineStart passage.markup).phrase (startsOption_guardLineStart _)
    exact ⟨columns.passage, environment_ne_nil _ _ _⟩
  · exact ⟨passage, ne⟩

theorem fits_style {d : Document} (guard : guarded → Guarded .executiveBlue d) :
    style.Fits (dialect .executiveBlue guarded) d where
  heading := block_plainHeading
  wrap := passage_wrap
  experience :=
    { header := fun _ => fits_experienceHeader
      listOpening := rfl
      separator := .gap (by decide) }
  education shown :=
    { header := fun e mem => fits_educationHeader fun guarded => by
        have none : d.hasBareDates = false := by simpa [Guarded] using guard guarded
        simp only [Document.hasBareDates, shown, Bool.not_false, Bool.true_and, List.any_eq_false] at none
        simpa using none e mem
      activities := fun _ => passage_activities
      separator := .gap (by decide) }

end ExecutiveBlue

/-! ## The gray executive style -/

namespace ExecutiveGray

theorem fits_entryHeader (fits : h.Fits (dialect .executiveGray guarded)) :
    HeaderFits (dialect .executiveGray guarded) entryHeader h :=
  .oneLine rfl (.text rfl) (.styled (mem_commands rfl) (.self fits.title))
    (.self fits.organization) (.styled (mem_commands rfl) (.self fits.dates))

theorem passage_activities (markup : Markup (dialect .executiveGray guarded) text) :
    Passage (dialect .executiveGray guarded) (activities text) ∧ activities text ≠ [] := by
  have line : Markup (dialect .executiveGray guarded) ("Activities: " ++ text) :=
    (Markup.text rfl).append markup
  exact passage_par (mem_commands rfl) (.command (mem_commands rfl) line.phrase) rfl

theorem passage_wrap (key : Option SectionKey) (body : Tex)
    (passage : Passage (dialect .executiveGray guarded) body) (_ : body ≠ []) :
    Passage (dialect .executiveGray guarded) (wrap key body) ∧ wrap key body ≠ [] := by
  have print : Block (dialect .executiveGray guarded)
      (braced (control "footnotesize" ++ command "color" "textgray" ++ "\n" ++ body ++ "\n")) :=
    .braced (((Markup.append (markup_fixed rfl) passage.markup).append .line).phrase)
  unfold wrap
  simp only
  split
  · have columns : Block (dialect .executiveGray guarded) (environment "multicols" (braced "2") _) :=
      .columns (by decide) print.markup.phrase rfl
    exact ⟨columns.passage, environment_ne_nil _ _ _⟩
  · exact ⟨print.passage, braced_ne_nil _⟩

theorem fits_style (d : Document) : style.Fits (dialect .executiveGray guarded) d where
  heading := block_plainHeading
  wrap := passage_wrap
  experience :=
    { header := fun _ => fits_entryHeader
      listOpening := rfl
      separator := .gap (by decide) }
  education _ :=
    { header := fun e _ => fits_entryHeader e.fits_entryHeader
      activities := fun _ => passage_activities
      separator := .gap (by decide) }

end ExecutiveGray

end Layout

end Vitae
