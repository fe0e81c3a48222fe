import Vitae.Body.References
import Vitae.Proofs.Text.Trimming
import Mathlib.Data.List.Forall2

namespace Vitae.Body

open Text

variable {r : Record} {rs : List Record} {ls ws : List (List Char)}

/-! ## Spellings of records -/

structure IsRecord (r : Record) : Prop where
  present : r ≠ []
  lines : ∀ line ∈ r, IsTrimmedLine line

inductive Spaced : List Record → List (List Char) → Prop where
  | nil : Spaced [] []
  | space {rs : List Record} {ls : List (List Char)} (rest : Spaced rs ls) : Spaced rs ([] :: ls)
  | record {r : Record} {rs : List Record} {ls : List (List Char)} (apart : ∀ line ∈ ls.head?, line = [])
      (rest : Spaced rs ls) : Spaced (r :: rs) (r ++ ls)

/-- A line as it may be typed: with blanks around it, and with a line feed at its end or a carriage return
and a line feed. -/
def IsTyped (line typed : List Char) : Prop :=
  ∃ a b e, typed = a ++ line ++ b ++ e ∧ (∀ c ∈ a ++ b, isBlank c = true ∧ c ≠ '\n') ∧
    (e = ['\n'] ∨ e = ['\r', '\n'])

/-- The text spells the records. The line feed of its last line may be missing. -/
def Prints (rs : List Record) (text : List Char) : Prop :=
  ∃ ls typed, Spaced rs ls ∧ List.Forall₂ IsTyped ls typed ∧
    (typed.flatten = text ∨ typed.flatten = text ++ ['\n'])

/-! ## Lines and records -/

theorem groupRecords_concat (ls : List (List Char)) : groupRecords (ls ++ [[]]) = groupRecords ls := by
  fun_induction groupRecords ls <;> simp_all [groupRecords]

theorem groupRecords_append (ne : r ≠ []) (filled : ∀ line ∈ r, line ≠ [])
    (apart : ∀ line ∈ ls.head?, line = []) : groupRecords (r ++ ls) = r :: groupRecords ls := by
  induction r with
  | nil => exact absurd rfl ne
  | cons l r ih =>
    rw [List.forall_mem_cons] at filled
    obtain ⟨c, l, rfl⟩ := List.exists_cons_of_ne_nil filled.1
    cases r with
    | nil =>
      cases ls with
      | nil => rfl
      | cons l' ls =>
        obtain rfl : l' = [] := apart l' rfl
        rfl
    | cons l' r =>
      have rest := ih (List.cons_ne_nil l' r) filled.2
      rw [List.forall_mem_cons] at filled
      obtain ⟨d, l', rfl⟩ := List.exists_cons_of_ne_nil filled.2.1
      simp only [List.cons_append] at rest ⊢
      simp only [groupRecords]
      rw [rest]

theorem Spaced.groupRecords_eq (spaced : Spaced rs ls) (filled : ∀ r ∈ rs, IsRecord r) :
    groupRecords ls = rs := by
  induction spaced with
  | nil => rfl
  | space _ ih => exact ih filled
  | record apart _ ih =>
    rw [List.forall_mem_cons] at filled
    rw [groupRecords_append filled.1.present (fun line mem => (filled.1.lines line mem).present) apart,
      ih filled.2]

theorem Spaced.exists_append (spaced : Spaced (r :: rs) ls) (visible : ∀ line ∈ ls.head?, line ≠ []) :
    ∃ rest, ls = r ++ rest ∧ (∀ line ∈ rest.head?, line = []) ∧ Spaced rs rest := by
  cases spaced with
  | space rest => exact absurd rfl (visible [] rfl)
  | record apart rest => exact ⟨_, rfl, apart, rest⟩

theorem spaced_groupRecords (ls : List (List Char)) : Spaced (groupRecords ls) ls := by
  fun_induction groupRecords ls with
  | case1 => exact .nil
  | case2 ls ih => exact .space ih
  | case3 l visible => exact (.record (by simp) .nil : Spaced [[l]] ([l] ++ []))
  | case4 l visible ls ih => exact (.record (by simp) (.space ih) : Spaced ([l] :: _) ([l] ++ [] :: ls))
  | case5 l visible l' ls visible' none ih =>
    have kept := flatten_groupRecords (l' :: ls)
    rw [none, List.flatten_nil, List.filter_cons_of_pos (by simpa using visible')] at kept
    cases kept
  | case6 l visible l' ls visible' r rs cut ih =>
    rw [cut] at ih
    obtain ⟨rest, same, apart, spaced⟩ := ih.exists_append (by simpa using visible')
    rw [same]
    exact .record (r := l :: r) apart spaced

theorem nil_not_mem_groupRecords (ls : List (List Char)) : [] ∉ groupRecords ls := by
  fun_induction groupRecords ls <;> simp_all

/-! ## Texts -/

theorem records_eq (text : List Char) : records text = groupRecords ((splitLines text).map trim) := by
  rw [records, trimmedLines]
  obtain same | more := splitLines_eq text
  · rw [same]
  · rw [more, List.map_append]
    exact (groupRecords_concat _).symm

theorem IsTyped.exists_piece {line typed : List Char} (h : IsTyped line typed) (solid : Solid line)
    (whole : '\n' ∉ line) : ∃ w, w ++ ['\n'] = typed ∧ trim w = line ∧ '\n' ∉ w := by
  obtain ⟨a, b, e, rfl, blanks, ends⟩ := h
  obtain ⟨front, behind⟩ := List.forall_mem_append.mp blanks
  have piece (b : List Char) (behind : ∀ c ∈ b, isBlank c = true ∧ c ≠ '\n') :
      trim (a ++ line ++ b) = line ∧ '\n' ∉ a ++ line ++ b := by
    constructor
    · rw [trim_of_blank_around (List.all_eq_true.mpr fun c mem => (front c mem).1)
        (List.all_eq_true.mpr fun c mem => (behind c mem).1), trim_of_solid solid]
    · simp only [List.mem_append, not_or]
      exact ⟨⟨fun mem => (front _ mem).2 rfl, whole⟩, fun mem => (behind _ mem).2 rfl⟩
  obtain rfl | rfl := ends
  · exact ⟨a ++ line ++ b, rfl, piece b behind⟩
  · -- the carriage return is one more blank behind the line
    have returned : ∀ c ∈ b ++ ['\r'], isBlank c = true ∧ c ≠ '\n' :=
      List.forall_mem_append.mpr ⟨behind, List.forall_mem_singleton.mpr (by decide)⟩
    exact ⟨a ++ line ++ (b ++ ['\r']), by simp, piece _ returned⟩

theorem isTyped_trim {w : List Char} (whole : '\n' ∉ w) : IsTyped (trim w) (w ++ ['\n']) := by
  obtain ⟨a, b, same, front, behind⟩ := exists_blank_around w
  refine ⟨a, b, ['\n'], by rw [← same], List.forall_mem_append.mpr ⟨fun c mem => ?_, fun c mem => ?_⟩, .inl rfl⟩
  · refine ⟨List.all_eq_true.mp front c mem, fun feed => whole ?_⟩
    rw [same, ← feed]
    simp [mem]
  · refine ⟨List.all_eq_true.mp behind c mem, fun feed => whole ?_⟩
    rw [same, ← feed]
    simp [mem]

theorem exists_pieces {typed : List (List Char)} (h : List.Forall₂ IsTyped ls typed)
    (solid : ∀ line ∈ ls, Solid line ∧ '\n' ∉ line) :
    ∃ ws : List (List Char), ws.map (· ++ ['\n']) = typed ∧ ws.map trim = ls ∧ ∀ w ∈ ws, '\n' ∉ w := by
  induction h with
  | nil => exact ⟨[], rfl, rfl, List.forall_mem_nil _⟩
  | cons one _ ih =>
    rw [List.forall_mem_cons] at solid
    obtain ⟨w, rfl, rfl, whole⟩ := one.exists_piece solid.1.1 solid.1.2
    obtain ⟨ws, rfl, rfl, wholes⟩ := ih solid.2
    exact ⟨w :: ws, rfl, rfl, List.forall_mem_cons.mpr ⟨whole, wholes⟩⟩

theorem Spaced.solid (spaced : Spaced rs ls) (filled : ∀ r ∈ rs, IsRecord r) :
    ∀ line ∈ ls, Solid line ∧ '\n' ∉ line := by
  induction spaced with
  | nil => exact List.forall_mem_nil _
  | space _ ih => exact List.forall_mem_cons.mpr ⟨⟨.nil, List.not_mem_nil⟩, ih filled⟩
  | record _ _ ih =>
    rw [List.forall_mem_cons] at filled
    refine List.forall_mem_append.mpr ⟨fun line mem => ?_, ih filled.2⟩
    exact ⟨(filled.1.lines line mem).solid, (filled.1.lines line mem).whole⟩

variable {text : List Char}

theorem records_of_prints (filled : ∀ r ∈ rs, IsRecord r) (prints : Prints rs text) : records text = rs := by
  obtain ⟨ls, typed, spaced, lines, whole⟩ := prints
  obtain ⟨ws, rfl, trimmed, pieces⟩ := exists_pieces lines (spaced.solid filled)
  have grouped : groupRecords (ws.map trim) = rs := by
    rw [trimmed]
    exact spaced.groupRecords_eq filled
  by_cases none : ws = []
  · subst none
    obtain rfl | absent := whole
    · exact grouped
    · exact absurd absent.symm (List.append_ne_nil_of_right_ne_nil text (List.cons_ne_nil _ _))
  · have cut : splitLines (joinLines ws) = ws := split_joinWith pieces none
    rw [flatten_ended none, List.append_cancel_right_eq] at whole
    rw [records_eq]
    obtain rfl | rfl := whole
    · rw [splitLines_concat, cut, List.map_append]
      exact (groupRecords_concat _).trans grouped
    · rw [cut, grouped]

theorem prints_records (text : List Char) : Prints (records text) text := by
  have whole : ∀ w ∈ splitLines text, '\n' ∉ w := fun w mem => not_mem_of_mem_split mem
  refine ⟨(splitLines text).map trim, (splitLines text).map (· ++ ['\n']), ?_, ?_, .inr ?_⟩
  · rw [records_eq]
    exact spaced_groupRecords _
  · rw [List.forall₂_map_left_iff, List.forall₂_map_right_iff, List.forall₂_same]
    exact fun w mem => isTyped_trim (whole w mem)
  · have ended := flatten_ended (split_ne_nil '\n' text)
    rw [← splitLines, joinLines_splitLines] at ended
    exact ended

theorem isRecord_of_mem_records : ∀ r ∈ records text, IsRecord r := by
  intro r mem
  refine ⟨fun none => nil_not_mem_groupRecords _ (none ▸ mem), fun line memLine => ?_⟩
  have kept : line ∈ (records text).flatten := List.mem_flatten.mpr ⟨r, mem, memLine⟩
  rw [flatten_records] at kept
  exact isTrimmedLine_of_mem kept

/-- A text has the records that it is a spelling of, and no others. They hold the lines of the text that
are not blank, in order and without the blanks around them. -/
theorem records_exact (text : List Char) (rs : List Record) :
    (records text = rs ↔ (∀ r ∈ rs, IsRecord r) ∧ Prints rs text) ∧
      (records text).flatten = (trimmedLines text).filter (!·.isEmpty) := by
  refine ⟨⟨?_, fun ⟨filled, prints⟩ => records_of_prints filled prints⟩, flatten_records text⟩
  rintro rfl
  exact ⟨isRecord_of_mem_records, prints_records text⟩

theorem records_exact_mixedEnds :
    let rs : List Record := [["Ann".toList, "1".toList], ["Bo".toList]]
    let text := " \r\nAnn\r\n\t1\n\n\r\nBo\u00a0\n".toList
    (∀ r ∈ rs, IsRecord r) ∧ Prints rs text ∧ records text = rs := by
  intro rs text
  have line (s : List Char) (shown : s ≠ [] ∧ trim s = s ∧ '\n' ∉ s) : IsTrimmedLine s :=
    ⟨shown.1, shown.2.1 ▸ solid_trim s, shown.2.2⟩
  have filled : ∀ r ∈ rs, IsRecord r := by
    simp only [rs, List.forall_mem_cons]
    refine ⟨⟨by decide, ?_⟩, ⟨by decide, ?_⟩, List.forall_mem_nil _⟩
    · simp only [List.forall_mem_cons]
      exact ⟨line _ (by decide), line _ (by decide), List.forall_mem_nil _⟩
    · exact List.forall_mem_singleton.mpr (line _ (by decide))
  have prints : Prints rs text := by
    refine ⟨[[], "Ann".toList, "1".toList, [], [], "Bo".toList], _,
      .space (.record (r := ["Ann".toList, "1".toList]) (by simp) (.space (.space
        (.record (r := ["Bo".toList]) (by simp) .nil)))),
      .cons ⟨[' '], [], ['\r', '\n'], rfl, List.forall_mem_singleton.mpr (by decide), .inr rfl⟩ <|
      .cons ⟨[], [], ['\r', '\n'], rfl, List.forall_mem_nil _, .inr rfl⟩ <|
      .cons ⟨['\t'], [], ['\n'], rfl, List.forall_mem_singleton.mpr (by decide), .inl rfl⟩ <|
      .cons ⟨[], [], ['\n'], rfl, List.forall_mem_nil _, .inl rfl⟩ <|
      .cons ⟨[], [], ['\r', '\n'], rfl, List.forall_mem_nil _, .inr rfl⟩ <|
      .cons ⟨[], ['\u00a0'], ['\n'], rfl, List.forall_mem_singleton.mpr (by decide), .inl rfl⟩ .nil, .inl rfl⟩
  exact ⟨filled, prints, (records_exact text rs).1.mpr ⟨filled, prints⟩⟩

end Vitae.Body
