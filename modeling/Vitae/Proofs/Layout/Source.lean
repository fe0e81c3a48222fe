import Vitae.Proofs.Layout.Body
import Vitae.Proofs.Layout.Preamble
import Vitae.Proofs.Reading.Soundness

/-!
# Sources

The source of a document is its preamble and, between the opening and the closing of the document, its
body. A reading gets through all of it, and so the source has the control words of its layout only, nests
its groups and environments, and escapes all that a user wrote.
-/

namespace Vitae.Layout

open Tex

variable {guarded : Prop} {l : Layout} {d : Document}

/-! ## The parts of a source -/

def preface (l : Layout) : Tex :=
  join "\n" l.preamble ++ "\n\n"

def inside (l : Layout) (d : Document) : Tex :=
  "\n\n" ++ Text.trim (l.body d) ++ "\n\n"

theorem render_eq (l : Layout) (d : Document) :
    l.render d = l.preface ++ (opening "document" ++ (l.inside d ++ closing "document")) := by
  simp only [render, source, preface, inside, List.append_assoc]

theorem markup_preface (l : Layout) (guarded : Prop) : Markup (l.dialect guarded) l.preface :=
  markup_preamble l

theorem markup_inside (guard : guarded → l.Guarded d) : Markup (l.dialect guarded) (l.inside d) := by
  have block := block_body guard
  have gap : Markup (l.dialect guarded) "\n\n".toList := .text rfl
  rw [inside, Text.trim_of_solid block.solid]
  exact (gap.append block.markup).append gap

/-! ## Reading a source -/

theorem passesTo_inside (l : Layout) (d : Document) (guarded : Prop) :
    (l.dialect guarded).PassesTo (l.render d) (l.inside d ++ closing "document") := by
  have preface (t : Tex) : (l.dialect guarded).PassesTo (l.preface ++ t) t :=
    (markup_preface l guarded [] t).lex
  rw [render_eq]
  exact (preface _).trans (passesTo_opening (by decide) (by decide) (by decide) _)

theorem passesTo_render (guard : guarded → l.Guarded d) :
    (l.dialect guarded).PassesTo (l.render d) [] := by
  have inside : (l.dialect guarded).PassesTo (l.inside d ++ closing "document") (closing "document") :=
    (markup_inside guard [] _).lex
  have closed : (l.dialect guarded).PassesTo (closing "document") [] := by
    simpa using passesTo_closing (g := l.dialect guarded) (n := "document") (by decide) []
  exact ((passesTo_inside l d guarded).trans inside).trans closed

theorem passes_of_mem_lex (guard : guarded → l.Guarded d) :
    ∀ x ∈ lex (l.render d), (l.dialect guarded).Passes x := by
  obtain ⟨front, cut, passes⟩ := passesTo_render guard
  rw [lex_nil, List.append_nil] at cut
  rwa [cut]

theorem marks_render (l : Layout) (d : Document) :
    ∃ before within t, marks (l.render d) = before ++ (.opens (.environment "document"), t) ::
        (within ++ [(.closes (.environment "document"), [])]) ∧
      nest [] (before.map Prod.fst) = some [] ∧
      nest [.environment "document"] (within.map Prod.fst) = some [.environment "document"] ∧
      ∀ m ∈ before ++ within, m.1 ≠ .opens (.environment "document") := by
  obtain ⟨before, cut, nested, others⟩ := (markup_preface l False []
    (opening "document" ++ (l.inside d ++ closing "document"))).marks
  obtain ⟨within, cutInside, nestedInside, othersInside⟩ :=
    (markup_inside (l := l) (d := d) False.elim [.environment "document"] (closing "document")).marks
  have closed := marks_closing (n := "document") (by decide) []
  rw [List.append_nil, marks_nil] at closed
  refine ⟨before, within, l.inside d ++ closing "document", ?_, nested, nestedInside,
    List.forall_mem_append.mpr ⟨others, othersInside⟩⟩
  simp only at cut cutInside
  rw [render_eq, cut, marks_opening (by decide), cutInside, closed]

theorem escaped_render (l : Layout) (d : Document) : Escaped (l.render d) := by
  have nothing : Escaped [] := by simp [Escaped, exposed]
  have closed := nothing.closing (n := "document") (by decide)
  rw [List.append_nil] at closed
  have inside := (markup_inside (l := l) (d := d) False.elim [] (closing "document")).escaped closed
  rw [render_eq]
  exact (markup_preface l False [] _).escaped (inside.opening (by decide))

/-! ## What every source keeps -/

/-- No document brings a control sequence into its source: the control words are those of the layout, and
the control symbols are the line break, the blank and the characters with an escaped form. -/
theorem controls_render (l : Layout) (d : Document) :
    (∀ w t, (.word w, t) ∈ lex (l.render d) → w ∈ l.vocabulary) ∧
      (∀ c t, (.symbol c, t) ∈ lex (l.render d) → c ∈ ['\\', ' ', '&', '%', '#', '_', '$', '{', '}']) ∧
      ∀ x ∈ lex (l.render d), x.1 ≠ .dangling := by
  have passes : ∀ x ∈ lex (l.render d), (l.dialect False).Passes x := passes_of_mem_lex False.elim
  refine ⟨fun w t mem => (passes _ mem).1, fun c t mem => (passes _ mem).1, ?_⟩
  rintro ⟨token, t⟩ mem rfl
  exact (passes _ mem).1

/-- Every source is nested, starts with its class, opens the document once and ends with its closing. -/
theorem nested_render (l : Layout) (d : Document) :
    nest [] ((marks (l.render d)).map Prod.fst) = some [] ∧
      (∃ t, l.render d = control "documentclass" ++ '[' :: t) ∧
      ((marks (l.render d)).map Prod.fst).count (.opens (.environment "document")) = 1 ∧
      (∃ t, l.render d = t ++ closing "document") ∧
      (marks (l.render d)).getLast? = some (.closes (.environment "document"), []) := by
  obtain ⟨before, within, t, cut, nested, nestedInside, others⟩ := marks_render l d
  have start : ∃ t, join "\n" l.preamble = control "documentclass" ++ '[' :: t := by
    cases l <;> exact ⟨_, rfl⟩
  refine ⟨?_, ?_, ?_, ⟨_, rfl⟩, ?_⟩
  · rw [cut, List.map_append, nest_append, nested]
    simp only [List.map_cons, List.map_append, List.map_nil, Option.bind_some, nest]
    rw [nest_append, nestedInside]
    simp [nest]
  · obtain ⟨t, eq⟩ := start
    refine ⟨t ++ "\n\n".toList ++ (opening "document" ++ (l.inside d ++ closing "document")), ?_⟩
    rw [render_eq, preface, eq]
    simp only [List.append_assoc, List.cons_append]
  -- The preface and the inside do not open the document themselves.
  · have none : ∀ ms : List (Mark × Tex), (∀ m ∈ ms, m.1 ≠ .opens (.environment "document")) →
        (ms.map Prod.fst).count (.opens (.environment "document")) = 0 := by
      intro ms others
      rw [List.count_eq_zero]
      simpa using fun t mem => others _ mem rfl
    rw [List.forall_mem_append] at others
    rw [cut]
    simp [none before others.1, none within others.2]
  · rw [cut, List.getLast?_append_of_ne_nil _ (by simp), ← List.cons_append, List.getLast?_concat]

/-- Everything is escaped: outside of link targets no active character is met without a backslash, and
a target has none of the characters that could end it, break it or start a command. -/
theorem escaping_render (l : Layout) (d : Document) :
    (∀ c ∈ exposed (cutTargets (l.render d)).1, c ∉ ['&', '%', '#', '$', '_', '~', '^']) ∧
      ∀ u ∈ (cutTargets (l.render d)).2,
        (∀ c ∈ u, c ∉ ['{', '}', '^', '<', '>', '"', '`'] ∧
          Text.isBlank c = false ∧ Text.isControl c = false) ∧
        (∀ a b, u = a ++ '\\' :: b → ∃ c r, b = c :: r ∧ (c = '%' ∨ c = '#')) ∧
        ∀ a m b, u = a ++ m :: b → m = '%' ∨ m = '#' → ∃ r, a = r ++ ['\\'] := by
  obtain ⟨running, targets⟩ := escaped_render l d
  refine ⟨running, fun u mem => ⟨fun c memC => ⟨?_, (targets u mem).visible c memC⟩,
    fun a b => (targets u mem).behind_backslash, fun a m b => (targets u mem).before_mark⟩⟩
  rcases (targets u mem).safe c memC with rfl | safe
  · decide
  · exact fun mem => safe (List.mem_cons_of_mem _ mem)

end Vitae.Layout
