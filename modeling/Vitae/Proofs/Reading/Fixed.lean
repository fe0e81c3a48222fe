import Vitae.Proofs.Reading.Text

namespace Vitae.Tex

/-- Whether fixed text can be read with the given control words. `word` holds the letters of a control word
that has begun, and `depth` is the number of groups that are open. -/
def legible (words : List String) : Tex → Option Tex → Nat → Bool
  | [], word, depth => word.isNone && depth == 0
  | c :: t, word, depth =>
    let ends := word.all fun w => words.contains (String.ofList w)
    if word.isSome && c.isAlpha then legible words t (word.map (· ++ [c])) depth
    else if c = '\\' then ends && legible words t (some []) depth
    else if c = '{' then ends && legible words t none (depth + 1)
    else if c = '}' then ends && depth != 0 && legible words t none (depth - 1)
    else ends && isPlain c && legible words t none depth

def begun : Option Tex → Tex
  | none => []
  | some w => '\\' :: w

variable {g : Dialect}

theorem reads_begun {word : Option Tex} (ends : word.all fun w => g.commands.contains (String.ofList w))
    {t : Tex} (stop : (word.isSome && startsLetter t) = false) (fs : List Frame) :
    Reads g ⟨fs, begun word ++ t⟩ ⟨fs, t⟩ := by
  cases word with
  | none => exact .refl
  | some w =>
      have mem : String.ofList w ∈ g.commands := by simpa using ends
      have step : Step g ⟨fs, control (String.ofList w) ++ t⟩ ⟨fs, t⟩ := .word mem (by simpa using stop)
      simp only [control, String.toList_ofList] at step
      exact .single step

theorem legible_sound {t : Tex} {word : Option Tex} {depth : Nat}
    (h : legible g.commands t word depth = true) (fs : List Frame) (k : Tex) :
    Reads g ⟨List.replicate depth .group ++ fs, begun word ++ (t ++ k)⟩ ⟨fs, k⟩ := by
  induction t generalizing word depth with
  | nil =>
      simp only [legible, Bool.and_eq_true, Option.isNone_iff_eq_none, beq_iff_eq] at h
      obtain ⟨rfl, rfl⟩ := h
      exact .refl
  | cons c t ih =>
      rw [legible] at h
      split at h
      · -- A letter goes on with the word that has begun.
        rename_i letter
        simp only [Bool.and_eq_true] at letter
        obtain ⟨w, rfl⟩ := Option.isSome_iff_exists.mp letter.1
        simpa [begun] using ih h
      · rename_i stop
        -- Any other character ends the word, which the dialect must then have.
        have ended (ends : word.all fun w => g.commands.contains (String.ofList w)) :
            Reads g ⟨List.replicate depth .group ++ fs, begun word ++ (c :: (t ++ k))⟩
              ⟨List.replicate depth .group ++ fs, c :: (t ++ k)⟩ :=
          reads_begun ends (by simpa [startsLetter] using stop) _
        split at h
        · rename_i eq
          subst eq
          rw [Bool.and_eq_true] at h
          exact (ended h.1).trans (ih h.2)
        split at h
        · rename_i eq
          subst eq
          rw [Bool.and_eq_true] at h
          exact (ended h.1).trans (.head .openGroup (ih h.2))
        split at h
        · rename_i eq
          subst eq
          simp only [Bool.and_eq_true, bne_iff_ne] at h
          obtain ⟨n, rfl⟩ := Nat.exists_eq_succ_of_ne_zero h.1.2
          exact (ended h.1.1).trans (.head .closeGroup (ih h.2))
        · simp only [Bool.and_eq_true] at h
          exact (ended h.1.1).trans (.head (.plain h.1.2) (ih h.2))

theorem Markup.fixed {s : Tex} (h : legible g.commands s none 0 = true) : Markup g s :=
  fun fs t => legible_sound h fs t

end Vitae.Tex
