import Vitae.Proofs.Layout.LineStart
import Vitae.Proofs.Layout.Parts

namespace Vitae

open Text Tex

namespace Tex

variable {length : String} {s t p e : Tex} {bs : List Tex}

/-- What stands around a line break: something visible in front of it on its own line, and behind it the
end of the line, with extra space of the given length or without, and below that a line that starts with
something visible other than the closing of an environment. -/
structure Separates (length : String) (before behind : Tex) : Prop where
  above : LastLineVisible before
  below : ∃ space next, behind = space ++ '\n' :: next ∧ (space = [] ∨ space = bracketed length) ∧
    (∃ c rest, next = c :: rest ∧ isBlank c = false) ∧ ¬closingStart <+: next

/-- The line breaks that start in the text separate two lines, whatever stands behind the text. -/
def Tidy (length : String) (s : Tex) : Prop :=
  ∀ k a b, s ++ k = a ++ (lineBreak ++ b) → a.length < s.length → Separates length a b

theorem visible_of_startsLine (h : startsLine t = true) :
    ∃ c rest, t = c :: rest ∧ isBlank c = false := by
  cases t with
  | nil => cases h
  | cons c t =>
    rw [startsLine, Bool.and_eq_true, Bool.not_eq_true'] at h
    exact ⟨c, t, rfl, h.1⟩

theorem not_closing_of_startsLine (h : startsLine t = true) : ¬closingStart <+: t := by
  cases t with
  | nil => cases h
  | cons c t =>
    rw [startsLine, Bool.and_eq_true] at h
    exact not_prefix_of_differ h.2

theorem Separates.behind (h : Separates length s t) (front : Tex) : Separates length (front ++ s) t :=
  ⟨h.above.behind front, h.below⟩

namespace Tidy

theorem of_lacks (h : lacks lineBreak s = true) : Tidy length s :=
  fun _ _ _ eq inside => absurd (length_le_of_lacks h eq) (not_le.mpr inside)

theorem append (hs : Tidy length s) (ht : Tidy length t) : Tidy length (s ++ t) := by
  intro k a b eq inside
  rw [List.append_assoc] at eq
  by_cases front : a.length < s.length
  · exact hs (t ++ k) a b eq front
  · obtain ⟨a, rfl⟩ : s <+: a :=
      List.prefix_of_prefix_length_le ⟨t ++ k, eq⟩ ⟨lineBreak ++ b, rfl⟩ (not_lt.mp front)
    rw [List.append_assoc, List.append_cancel_left_eq] at eq
    rw [List.length_append, List.length_append, Nat.add_lt_add_iff_left] at inside
    exact (ht k a b eq inside).behind s

theorem lineEnd_eq (plain : Smooth length.toList) (mem : e ∈ lineEnds length) :
    ∃ space, e = lineBreak ++ space ++ "\n" ∧ (space = [] ∨ space = bracketed length) ∧
      lacks lineBreak ('\\' :: (space ++ "\n")) = true := by
  have opens : lacks lineBreak "\\[".toList = true := rfl
  have closes : lacks lineBreak "]\n".toList = true := rfl
  have spaced := lacks_append (lacks_append opens (smooth_iff.mp plain).2) closes
  rw [lineEnds, List.mem_pair] at mem
  rcases mem with rfl | rfl
  · exact ⟨[], rfl, .inl rfl, rfl⟩
  · exact ⟨bracketed length, rfl, .inr rfl, by simpa [bracketed] using spaced⟩

theorem lineEnd (plain : Smooth length.toList) (hp : Line p) (mem : e ∈ lineEnds length)
    (ht : Tidy length t) (first : startsLine t = true) : Tidy length (p ++ e ++ t) := by
  obtain ⟨space, rfl, shape, quiet⟩ := lineEnd_eq plain mem
  have later : Tidy length ('\\' :: (space ++ "\n") ++ t) := .append (.of_lacks quiet) ht
  intro k a b eq inside
  have whole : p ++ (lineBreak ++ space ++ "\n" ++ t ++ k) = a ++ (lineBreak ++ b) := by
    simpa only [List.append_assoc] using eq
  -- no break starts within the line, so the one at hand is the one right behind it or starts later
  obtain ⟨a, rfl⟩ : p <+: a :=
    List.prefix_of_prefix_length_le ⟨_, whole⟩ ⟨lineBreak ++ b, rfl⟩
      (length_le_of_lacks (smooth_iff.mp hp.smooth).2 whole)
  rw [List.append_assoc p a, List.append_cancel_left_eq] at whole
  cases a with
  | nil =>
    obtain rfl : space ++ '\n' :: (t ++ k) = b := by simpa [lineBreak] using whole
    have below := startsLine_append first k
    exact ⟨by simpa using hp.last, space, t ++ k, rfl, shape, visible_of_startsLine below,
      not_closing_of_startsLine below⟩
  | cons c a =>
    have rest : '\\' :: (space ++ "\n") ++ t ++ k = a ++ (lineBreak ++ b) := by
      simpa [lineBreak] using (List.cons.inj whole).2
    have within : a.length < ('\\' :: (space ++ "\n") ++ t).length := by
      simp [lineBreak] at inside ⊢
      omega
    simpa using (later k a b rest within).behind (p ++ [c])

theorem lines {parts : List Tex} (plain : Smooth length.toList) (mem : e ∈ lineEnds length)
    (h : ∀ p ∈ parts, Line p) : Tidy length (join e parts) := by
  cases parts with
  | nil => exact .of_lacks rfl
  | cons p parts =>
    refine (join_induction (P := fun t => Tidy length t ∧ startsLine t = true) (List.cons_ne_nil p parts)
      (fun q memQ => ⟨.of_lacks (smooth_iff.mp (h q memQ).smooth).2, (h q memQ).first⟩) ?_).1
    rintro q memQ t ⟨tidy, first⟩
    refine ⟨.lineEnd plain (h q memQ) mem tidy first, ?_⟩
    rw [List.append_assoc]
    exact startsLine_append (h q memQ).first _

end Tidy

theorem Composed.tidy (plain : Smooth length.toList) (h : Composed length s bs) : Tidy length s := by
  induction h with
  | smooth h => exact .of_lacks (smooth_iff.mp h).2
  | append _ _ front back => exact front.append back
  | lines mem h => exact .lines plain mem h
  | block ht _ body =>
    have start : Tidy length (control "section*") := .of_lacks rfl
    have title : Tidy length (Tex.braced _) := .of_lacks (smooth_iff.mp ht.braced).2
    exact (start.append title).append body

end Tex

namespace Layout

/-- Each line break of a source stands between two lines: something visible is in front of it on its own
line, an extra space of the layout at most stands behind it on that line, and the next line starts with
something visible other than the closing of an environment. -/
theorem lineBreaks_render (l : Layout) (d : Document) {behind : Tex}
    (mem : (.symbol '\\', behind) ∈ lex (l.render d)) :
    ∃ before, l.render d = before ++ (lineBreak ++ behind) ∧ Separates l.extraSpace before behind := by
  obtain ⟨before, eq⟩ := eq_append_of_symbol_mem_lex mem
  have tidy := (composed_render l d).tidy (smooth_extraSpace l)
  have whole : l.render d ++ [] = before ++ (lineBreak ++ behind) := by rw [List.append_nil, eq]; rfl
  refine ⟨before, eq, tidy [] before behind whole ?_⟩
  rw [eq]
  simp

theorem lineBreaks_render_bracketedDates :
    let d : Document := { education := [{ degree := "BSc", startDate := "[2019]" }] }
    ∃ behind, (.symbol '\\', behind) ∈ lex (render .executiveBlue d) ∧
      ∃ before, render .executiveBlue d = before ++ (lineBreak ++ behind) ∧
        Separates "4pt" before behind := by
  intro d
  have visits : Visits (dialect .executiveBlue False) (inside .executiveBlue d) _ :=
    ExecutiveBlue.visits_inside (d := d) rfl List.mem_cons_self (by decide)
  obtain ⟨r, mem⟩ := visits.mem_lex (closing "document")
  have memRender := (passesTo_inside .executiveBlue d False).subset mem
  exact ⟨_, memRender, lineBreaks_render .executiveBlue d memRender⟩

end Layout

end Vitae
