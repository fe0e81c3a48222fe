import Vitae.Proofs.Tex.Absence

namespace Vitae.Tex

def sectionStart : Tex :=
  control "section*"

def headings (t : Tex) : List Tex :=
  t.tails.filter (sectionStart.isPrefixOf ·)

variable {s t : Tex}

/-! ## Quiet texts -/

def Quiet (s : Tex) : Prop :=
  lacks sectionStart s = true

theorem headings_cons (c : Char) (t : Tex) : headings (c :: t) =
    if sectionStart.isPrefixOf (c :: t) then (c :: t) :: headings t else headings t := by
  rw [headings, List.tails_cons, List.filter_cons]
  rfl

theorem headings_append_of_quiet (h : Quiet s) (t : Tex) : headings (s ++ t) = headings t := by
  induction s with
  | nil => rfl
  | cons c s ih =>
    rw [Quiet, lacks, Bool.and_eq_true] at h
    have no : ¬sectionStart.isPrefixOf (c :: (s ++ t)) = true := by
      rw [List.isPrefixOf_iff_prefix]
      exact not_prefix_of_differ (differ_append h.1 t)
    rw [List.cons_append, headings_cons, if_neg no]
    exact ih h.2

theorem headings_sectionStart (t : Tex) :
    headings (sectionStart ++ t) = (sectionStart ++ t) :: headings t := by
  have start : sectionStart.isPrefixOf (sectionStart ++ t) = true :=
    List.isPrefixOf_iff_prefix.mpr (List.prefix_append _ _)
  have name : Quiet "section*".toList := rfl
  calc headings (sectionStart ++ t)
      = headings ('\\' :: ("section*".toList ++ t)) := rfl
    _ = (sectionStart ++ t) :: headings ("section*".toList ++ t) := by
        rw [headings_cons]
        exact if_pos start
    _ = (sectionStart ++ t) :: headings t := by rw [headings_append_of_quiet name]

/-! ## Texts with sections -/

/-- The sections that start in the text, whatever stands behind it: one for each of the blocks, which
stand in full where the section starts. -/
def Headed (s : Tex) (blocks : List Tex) : Prop :=
  ∀ t, ∃ hs, headings (s ++ t) = hs ++ headings t ∧ List.Forall₂ (fun h b => b <+: h) hs blocks

namespace Headed

variable {bs cs : List Tex}

theorem quiet (h : Quiet s) : Headed s [] :=
  fun t => ⟨[], headings_append_of_quiet h t, .nil⟩

theorem append (hs : Headed s bs) (ht : Headed t cs) : Headed (s ++ t) (bs ++ cs) := by
  intro k
  obtain ⟨front, cutFront, starts⟩ := hs (t ++ k)
  obtain ⟨back, cutBack, startsBack⟩ := ht k
  refine ⟨front ++ back, ?_, List.rel_append starts startsBack⟩
  rw [List.append_assoc, cutFront, cutBack, List.append_assoc]

theorem starts (h : Headed s bs) : List.Forall₂ (fun h b => b <+: h) (headings s) bs := by
  obtain ⟨hs, cut, starts⟩ := h []
  have none : headings [] = [] := rfl
  rw [List.append_nil, none, List.append_nil] at cut
  rw [cut]
  exact starts

theorem headings_append (h : Headed s []) (t : Tex) : headings (s ++ t) = headings t := by
  obtain ⟨hs, cut, starts⟩ := h t
  cases starts
  exact cut

theorem block {title body : Tex} (quietTitle : Quiet title) (quietBody : Headed body []) :
    Headed (command "section*" title ++ body) [command "section*" title ++ body] := by
  intro t
  have opens : Quiet ['{'] := rfl
  have closes : Quiet ['}'] := rfl
  have behind : Headed (['{'] ++ (title ++ (['}'] ++ body))) [] :=
    (quiet opens).append ((quiet quietTitle).append ((quiet closes).append quietBody))
  refine ⟨[command "section*" title ++ body ++ t], ?_, .cons (List.prefix_append _ _) .nil⟩
  have start := headings_sectionStart (['{'] ++ (title ++ (['}'] ++ body)) ++ t)
  rw [behind.headings_append] at start
  simpa only [command, braced, sectionStart, List.append_assoc, List.cons_append, List.nil_append]
    using start

end Headed

end Vitae.Tex
