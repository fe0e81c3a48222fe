import Vitae.Text.Blank
import Vitae.Text.Split

namespace Vitae.Text

/-- The lines of a text, without their line feeds. No line follows the last line feed. -/
def lines : List Char → List (List Char)
  | [] => []
  | c :: s =>
    if c = '\n' then [] :: lines s
    else match lines s with
      | [] => [[c]]
      | l :: ls => (c :: l) :: ls

def trimmedLines (s : List Char) : List (List Char) :=
  (lines s).map trim

def splitLines (s : List Char) : List (List Char) :=
  split '\n' s

def joinLines (ls : List (List Char)) : List Char :=
  joinWith '\n' ls

def dropReturns (s : List Char) : List Char :=
  (s.reverse.dropWhile (· == '\r')).reverse

theorem joinLines_splitLines (s : List Char) : joinLines (splitLines s) = s :=
  joinWith_split '\n' s

theorem splitLines_append (s t : List Char) : splitLines (s ++ '\n' :: t) = splitLines s ++ splitLines t := by
  rw [splitLines, splitLines, splitLines, split_eq_splitOn, split_eq_splitOn, split_eq_splitOn]
  exact List.splitOn_append_cons_self s t

theorem splitLines_concat (s : List Char) : splitLines (s ++ ['\n']) = splitLines s ++ [[]] :=
  splitLines_append s []

theorem splitLines_eq (s : List Char) : splitLines s = lines s ∨ splitLines s = lines s ++ [[]] := by
  induction s with
  | nil => exact .inr rfl
  | cons c s ih =>
    rw [splitLines, split, lines]
    by_cases feed : c = '\n'
    · rw [if_pos feed, if_pos feed]
      exact ih.imp (congrArg _) (congrArg _)
    · rw [if_neg feed, if_neg feed]
      obtain same | more := ih
      · rw [← splitLines, same]
        cases cut : lines s with
        | nil => exact absurd (same.trans cut) (split_ne_nil _ s)
        | cons l ls => exact .inl rfl
      · rw [← splitLines, more]
        cases lines s with
        | nil => exact .inl rfl
        | cons l ls => exact .inr rfl

theorem not_mem_of_mem_lines {s l : List Char} (mem : l ∈ lines s) : '\n' ∉ l := by
  apply not_mem_of_mem_split (s := s)
  rw [← splitLines]
  obtain same | more := splitLines_eq s
  · rwa [same]
  · rw [more]
    exact List.mem_append_left _ mem

theorem flatten_ended {ls : List (List Char)} (ne : ls ≠ []) :
    (ls.map (· ++ ['\n'])).flatten = joinLines ls ++ ['\n'] := by
  induction ls with
  | nil => exact absurd rfl ne
  | cons l ls ih =>
    cases ls with
    | nil => simp [joinLines, joinWith]
    | cons l' ls =>
      rw [List.map_cons, List.flatten_cons, ih (List.cons_ne_nil l' ls)]
      simp [joinLines, joinWith, List.intercalate_cons_cons]

end Vitae.Text
