namespace Vitae.Text

def split (mark : Char) : List Char → List (List Char)
  | [] => [[]]
  | c :: s =>
    if c = mark then [] :: split mark s
    else match split mark s with
      | [] => [[c]]
      | p :: ps => (c :: p) :: ps

def joinWith (mark : Char) (pieces : List (List Char)) : List Char :=
  List.intercalate [mark] pieces

theorem split_ne_nil (mark : Char) (s : List Char) : split mark s ≠ [] := by
  cases s with
  | nil => simp [split]
  | cons c s => simp only [split]; split <;> (try split) <;> simp

theorem split_eq_splitOn (mark : Char) (s : List Char) : split mark s = s.splitOn mark := by
  induction s with
  | nil => rfl
  | cons c s ih =>
    rw [split, List.splitOn_cons_eq_if_modifyHead, ← ih]
    by_cases same : c = mark
    · simp [same]
    · simp only [same, if_false, beq_iff_eq]
      split
      · case h_1 none => exact absurd none (split_ne_nil mark s)
      · case h_2 cut => rw [cut, List.modifyHead_cons]

theorem joinWith_split (mark : Char) (s : List Char) : joinWith mark (split mark s) = s := by
  rw [split_eq_splitOn]
  exact List.intercalate_splitOn mark

theorem split_joinWith {mark : Char} {ps : List (List Char)} (whole : ∀ p ∈ ps, mark ∉ p) (ne : ps ≠ []) :
    split mark (joinWith mark ps) = ps := by
  rw [split_eq_splitOn]
  exact List.splitOn_intercalate mark whole ne

theorem not_mem_of_mem_split {mark : Char} {s p : List Char} (mem : p ∈ split mark s) : mark ∉ p := by
  induction s generalizing p with
  | nil =>
    obtain rfl := List.mem_singleton.mp mem
    exact List.not_mem_nil
  | cons c s ih =>
    rw [split] at mem
    split at mem
    · obtain rfl | mem := List.mem_cons.mp mem
      · exact List.not_mem_nil
      · exact ih mem
    · case isFalse other =>
      split at mem
      · case h_1 none => exact absurd none (split_ne_nil mark s)
      · case h_2 q qs cut =>
        rw [cut] at ih
        obtain rfl | mem := List.mem_cons.mp mem
        · exact List.not_mem_cons_of_ne_of_not_mem (Ne.symm other) (ih List.mem_cons_self)
        · exact ih (List.mem_cons_of_mem _ mem)

theorem split_append {mark : Char} {p : List Char} (whole : mark ∉ p) (s : List Char) :
    split mark (p ++ mark :: s) = p :: split mark s := by
  rw [split_eq_splitOn, split_eq_splitOn]
  exact List.splitOn_append_cons_self_of_not_mem whole s

theorem split_of_not_mem {mark : Char} {s : List Char} (whole : mark ∉ s) : split mark s = [s] := by
  rw [split_eq_splitOn]
  exact List.splitOn_eq_singleton whole

theorem length_split (mark : Char) (s : List Char) : (split mark s).length = s.count mark + 1 := by
  induction s with
  | nil => rfl
  | cons c s ih =>
    rw [split, List.count_cons]
    by_cases same : c = mark
    · simp [same, ih]
    · cases cut : split mark s with
      | nil => exact absurd cut (split_ne_nil mark s)
      | cons p ps =>
        rw [cut] at ih
        simpa [same] using ih

end Vitae.Text
