import Vitae.Job
import Vitae.Proofs.Files.Name
import Vitae.Proofs.Files.Tree

namespace Vitae.FileTree

open Vitae.Path

variable {t u : FileTree} {p q : Path} {front : List Piece} {name : Piece} {content : ByteArray}

/-! ## Places of files -/

def directoryOf (t : FileTree) (front : List Piece) : Location :=
  (front.filter (!·.isEmpty)).foldl follow (if front.head? = some [] then [] else t.current)

theorem bare_of_ends (ends : Ends p front name) : (p.chars.getLast? == some '/') = false := by
  have plain : '/' ∉ name := ends.plain name (by simp)
  obtain ⟨init, last, rfl⟩ := (List.eq_nil_or_concat name).resolve_left ends.visible
  rw [List.concat_eq_append] at ends plain
  have chars : p.chars = glue (front ++ [init]) ++ [last] := by
    rw [ends.chars, glue_concat_append]
  rw [beq_eq_false_iff_ne, chars, List.getLast?_concat]
  intro slash
  cases slash
  exact plain (by simp)

theorem named_of_cut {piece : Piece} (h : cut p.chars = front ++ [piece]) (visible : piece ≠ []) :
    named p = front.filter (!·.isEmpty) ++ [piece] := by
  rw [named, h, List.filter_append]
  simp [visible]

theorem start_of_ends (t : FileTree) (ends : Ends p front name) :
    t.start p = if front.head? = some [] then [] else t.current := by
  have plain := ends.plain
  have absolute : p.isAbsolute = decide (front.head? = some []) := by
    rw [isAbsolute, ends.chars]
    cases front with
    | nil =>
      obtain ⟨c, rest, rfl⟩ := List.exists_cons_of_ne_nil ends.visible
      rw [List.nil_append, List.forall_mem_singleton, List.mem_cons, not_or] at plain
      simpa [glue, Text.joinWith, List.intercalate] using Ne.symm plain.1
    | cons first rest =>
      obtain ⟨second, others, eq⟩ := List.exists_cons_of_ne_nil (List.concat_ne_nil name rest)
      rw [List.cons_append, eq, glue_cons_cons]
      cases first with
      | nil => rfl
      | cons c first =>
        rw [List.cons_append, List.forall_mem_cons, List.mem_cons, not_or] at plain
        simpa using Ne.symm plain.1.1
  rw [start, absolute]
  simp only [decide_eq_true_eq]

theorem place_of_ends (t : FileTree) (ends : Ends p front name) :
    t.place p = t.directoryOf front ++ [name] := by
  rw [place, steps_eq_named (bare_of_ends ends), named_of_cut ends.cut ends.visible, List.foldl_append,
    start_of_ends t ends, ← directoryOf, List.foldl_cons, List.foldl_nil, follow, if_neg ends.dot,
    if_neg ends.dots]

/-! ## Paths of files -/

theorem exists_cut_of_bare (bare : (p.chars.getLast? == some '/') = false) (ne : p.chars ≠ []) :
    ∃ front piece, cut p.chars = front ++ [piece] ∧ piece ≠ [] := by
  obtain ⟨front, piece, eq⟩ := (List.eq_nil_or_concat (cut p.chars)).resolve_left (Text.split_ne_nil '/' _)
  rw [List.concat_eq_append] at eq
  refine ⟨front, piece, eq, ?_⟩
  rintro rfl
  have chars : p.chars = glue (front ++ [[]]) := by
    rw [← eq, glue_cut]
  cases front with
  | nil => exact ne chars
  | cons first rest =>
    rw [glue_concat_nil] at chars
    rw [chars, List.getLast?_concat] at bare
    cases bare

theorem checkPath_eq_ok {r : Unit} (h : checkPath p = .ok r) : p.chars ≠ [] := by
  intro empty
  simp [checkPath, empty] at h

theorem isNamed_of_writeFile (h : t.writeFile p content = .ok u) : p.IsNamed := by
  obtain ⟨⟨l, last?⟩, looked, h⟩ := bind_eq_ok.mp h
  obtain ⟨checked, -, lastEq⟩ := locateLast_eq_ok looked
  cases last? with
  | none => cases h
  | some piece =>
    dsimp only at h
    split at h
    · cases h
    · case isFalse plain =>
      simp only [Bool.or_eq_true, not_or, isDots, beq_iff_eq] at plain
      obtain ⟨⟨dot, dots⟩, bare⟩ := plain
      obtain ⟨front, name, cut, visible⟩ :=
        exists_cut_of_bare (beq_eq_false_iff_ne.mpr bare) (checkPath_eq_ok checked)
      rw [named_of_cut cut visible, List.getLast?_concat, Option.some_inj] at lastEq
      rw [lastEq] at dot dots
      exact ⟨front, name, cut, visible, dot, dots⟩

theorem foldlM_step_concat {pieces : List Piece} {piece : Piece} {l k : Location}
    (h : (pieces ++ [piece]).foldlM t.step l = .ok k) : ∃ m, t.step m piece = .ok k := by
  rw [List.foldlM_append] at h
  obtain ⟨m, -, last⟩ := bind_eq_ok.mp h
  rw [List.foldlM_cons] at last
  obtain ⟨_, stepped, done⟩ := bind_eq_ok.mp last
  cases done
  exact ⟨m, stepped⟩

theorem directory_of_step (closed : t.Closed) {piece : Piece} {l k : Location}
    (dots : piece = ['.'] ∨ piece = ['.', '.']) (h : t.step l piece = .ok k) :
    t.entry? k = some .directory := by
  obtain ⟨here, eq⟩ := step_eq_ok h
  rcases dots with rfl | rfl
  · rw [eq]
    exact here
  · have eq : k = l.dropLast := eq
    rcases List.eq_nil_or_concat l with rfl | ⟨init, last, rfl⟩
    · rw [eq]
      rfl
    · rw [List.concat_eq_append] at eq here
      rw [eq, List.dropLast_concat]
      exact closed init last (here ▸ Option.some_ne_none _)

theorem start_of_named_nil (ne : p.chars ≠ []) (none : named p = []) : t.start p = [] := by
  obtain ⟨c, s, chars⟩ := List.exists_cons_of_ne_nil ne
  by_cases slash : c = '/'
  · have absolute : p.isAbsolute = true := by
      rw [isAbsolute, chars, slash]
      rfl
    rw [start, if_pos absolute]
  · obtain ⟨first, rest, cutS⟩ := exists_cut s
    rw [named, chars, cut_cons slash cutS, List.filter_cons_of_pos (by simp)] at none
    cases none

theorem isNamed_of_readFile (closed : t.Closed) (h : t.readFile p = .ok content) : p.IsNamed := by
  obtain ⟨found, file⟩ := readFile_eq_ok h
  obtain ⟨_, checked, found⟩ := bind_eq_ok.mp found
  have noDirectory : t.entry? (t.place p) ≠ some .directory := by
    rw [file?_eq_some.mp file]
    exact fun eq => by cases eq
  have ne := checkPath_eq_ok checked
  -- A path that ends in a slash leads to a directory, as dots do, and a file is none.
  have bare : (p.chars.getLast? == some '/') = false := by
    by_contra slash
    rw [Bool.not_eq_false] at slash
    cases none : (named p).isEmpty with
    | true =>
      have steps : steps p = [] := by
        rw [FileTree.steps, ← named, none, slash]
        exact List.isEmpty_iff.mp none
      have here : t.place p = [] := by
        rw [place, steps, start_of_named_nil ne (List.isEmpty_iff.mp none)]
        rfl
      rw [here] at noDirectory
      exact noDirectory rfl
    | false =>
      have steps : steps p = named p ++ [['.']] := by
        rw [FileTree.steps, ← named, none, slash]
        rfl
      rw [steps] at found
      obtain ⟨m, last⟩ := foldlM_step_concat found
      exact noDirectory (directory_of_step closed (.inl rfl) last)
  obtain ⟨front, name, cut, visible⟩ := exists_cut_of_bare bare ne
  rw [steps_eq_named bare, named_of_cut cut visible] at found
  obtain ⟨m, last⟩ := foldlM_step_concat found
  have dots : ¬(name = ['.'] ∨ name = ['.', '.']) :=
    fun dots => noDirectory (directory_of_step closed dots last)
  rw [not_or] at dots
  exact ⟨front, name, cut, visible, dots.1, dots.2⟩

/-! ## Places of outputs -/

section

variable {s : Settings} {otherFront outFront : List Piece} {other outName extension : Piece}

theorem extension_plain (s : Settings) : '/' ∉ s.extension ∧ '.' ∉ s.extension ∧ s.extension ≠ [] := by
  rw [Settings.extension]
  cases s.texOnly <;> decide

theorem output_beside (asked : s.output = none) (p : Path) :
    Job.output s (.file p) = p.withExtension s.extension := by
  rw [Job.output, asked]
  rfl

theorem output_inside {directory : Path} (asked : s.output = some directory) (several : s.multiple = true)
    (ends : Ends p front name) :
    Job.output s (.file p) = (directory.join ⟨name⟩).withExtension s.extension := by
  rw [Job.output, asked, several]
  simp only [Input.path?, outputPath, ends.fileName?, Option.getD_some, if_true]

theorem exists_ends_join (directory : Path) : ∃ inside, ∀ {p : Path} {front : List Piece} {name : Piece},
    Ends p front name → Ends (directory.join ⟨name⟩) inside name := by
  obtain ⟨inside, joined⟩ := exists_cut_join directory
  refine ⟨inside, fun ends => ⟨?_, ends.visible, ends.dot, ends.dots⟩⟩
  exact joined _ ends.visible (ends.plain _ (by simp))

end

end Vitae.FileTree
