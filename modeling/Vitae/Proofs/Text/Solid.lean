import Vitae.Text.Blank
import Mathlib.Data.List.Basic

namespace Vitae.Text

def EndsVisible (s : List Char) : Prop :=
  ∀ c ∈ s.getLast?, isBlank c = false

structure Solid (s : List Char) : Prop where
  head : ∀ c ∈ s.head?, isBlank c = false
  last : EndsVisible s

theorem Solid.nil : Solid [] :=
  ⟨by simp, by simp [EndsVisible]⟩

theorem EndsVisible.behind {t : List Char} (h : EndsVisible t) (ne : t ≠ []) (s : List Char) :
    EndsVisible (s ++ t) := by
  intro c mem
  rw [List.getLast?_append_of_ne_nil _ ne] at mem
  exact h c mem

theorem Solid.around {s t : List Char} (hs : Solid s) (ht : EndsVisible t) (neS : s ≠ [])
    (neT : t ≠ []) (m : List Char) : Solid (s ++ m ++ t) := by
  refine ⟨?_, ht.behind neT _⟩
  intro c mem
  rw [List.append_assoc, List.head?_append_of_ne_nil _ neS] at mem
  exact hs.head c mem

theorem Solid.flatMap {s : List Char} {f : Char → List Char} (h : Solid s) (ne : ∀ c, f c ≠ [])
    (keep : ∀ c, isBlank c = false → Solid (f c)) : Solid (s.flatMap f) := by
  constructor
  · cases s with
    | nil => simp
    | cons c s =>
        rw [List.flatMap_cons, List.head?_append_of_ne_nil _ (ne c)]
        exact (keep c (h.head c rfl)).head
  · rcases List.eq_nil_or_concat s with rfl | ⟨s, c, rfl⟩
    · exact Solid.nil.last
    · rw [List.concat_eq_append, List.flatMap_append, List.flatMap_singleton]
      exact (keep c (h.last c (by simp))).last.behind (ne c) _

/-! ## Trimming -/

theorem trimStart_of_visible {s : List Char} (h : ∀ c ∈ s.head?, isBlank c = false) : trimStart s = s := by
  cases s with
  | nil => rfl
  | cons c s => simp [trimStart, h c rfl]

theorem trim_of_solid {s : List Char} (h : Solid s) : trim s = s := by
  rw [trim, trimStart_of_visible h.head]
  rcases List.eq_nil_or_concat s with rfl | ⟨s, c, rfl⟩
  · rfl
  · simp [trimEnd, h.last c (by simp)]

theorem isBlank_head_dropWhile {s : List Char} :
    ∀ c ∈ (s.dropWhile isBlank).head?, isBlank c = false := by
  intro c mem
  have first := List.head?_dropWhile_not isBlank s
  rw [Option.mem_def] at mem
  rwa [mem] at first

theorem solid_trim (s : List Char) : Solid (trim s) := by
  constructor
  · cases cut : trimStart s with
    | nil => simp [trim, cut]
    | cons c rest =>
        have visible : isBlank c = false := isBlank_head_dropWhile c (by rw [← trimStart, cut]; rfl)
        have keep : trim s = c :: trimEnd rest := by
          simpa [trim, cut] using trimEnd_append (s := []) visible rest
        rw [keep]
        rintro _ ⟨⟩
        exact visible
  · intro c mem
    rw [trim, trimEnd, List.getLast?_reverse] at mem
    exact isBlank_head_dropWhile c mem

theorem allBlank_of_solid {s : List Char} (h : Solid s) (ne : s ≠ []) : allBlank s = false := by
  cases s with
  | nil => exact absurd rfl ne
  | cons c s => simp [allBlank, h.head c rfl]

theorem mem_of_mem_trim {s : List Char} {c : Char} (h : c ∈ trim s) : c ∈ s := by
  rw [trim, trimEnd, List.mem_reverse] at h
  have := (List.dropWhile_sublist _).subset h
  rw [List.mem_reverse] at this
  exact (List.dropWhile_sublist _).subset this

end Vitae.Text
