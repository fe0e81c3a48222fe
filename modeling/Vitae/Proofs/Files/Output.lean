import Vitae.Proofs.Files.Place

namespace Vitae

namespace Path

variable {p q : Path} {name extension : Piece}

/-- The second name is the first with what stands behind its last dot replaced, or with a dot and the extension
behind it where there is no dot, or none but at the start. -/
inductive Renamed (extension : Piece) : Piece → Piece → Prop
  | replaced {stem old : Piece} (visible : stem ≠ []) (bare : '.' ∉ old) :
    Renamed extension (stem ++ '.' :: old) (stem ++ '.' :: extension)
  | appended {name : Piece} (bare : '.' ∉ name.tail) : Renamed extension name (name ++ '.' :: extension)

theorem no_dot_of_splitName (whole : (splitName name).2 = none) : '.' ∉ name.tail := by
  intro dot
  obtain ⟨old, stem, cut, bare⟩ := List.eq_append_cons_of_mem (List.mem_reverse.mpr dot)
  cases name with
  | nil => cases dot
  | cons c rest =>
    have named : c :: rest = (c :: stem.reverse) ++ '.' :: old.reverse := by
      rw [← List.reverse_reverse rest, show rest.reverse = _ from cut]
      simp
    rw [named, splitName_append (by simpa using bare)] at whole
    cases whole

theorem renamed_splitName (extension name : Piece) :
    Renamed extension name ((splitName name).1 ++ '.' :: extension) := by
  rcases splitName_cases name with whole | ⟨stem, old, rfl, visible, bare, split⟩
  · rw [whole]
    exact .appended (no_dot_of_splitName (by rw [whole]))
  · rw [split]
    exact .replaced visible bare

theorem eq_of_cut (same : cut p.chars = cut q.chars) : p = q := by
  obtain ⟨s⟩ := p
  obtain ⟨r⟩ := q
  rw [mk.injEq, ← glue_cut s, ← glue_cut r]
  exact congrArg glue same

end Path

open Vitae.Path

/-- The output of an input is named for it, and stands in a directory that was asked for or beside the input. -/
inductive OutputAt (extension : Piece) : Option Path → Path → Path → Prop
  | inside {directory p : Path} {front outFront : List Piece} {name outName : Piece}
    (input : Ends p front name) (renamed : Renamed extension name outName)
    (output : Ends (directory.join ⟨outName⟩) outFront outName) :
    OutputAt extension (some directory) p (directory.join ⟨outName⟩)
  | beside {p out : Path} {front : List Piece} {name outName : Piece} (input : Ends p front name)
    (renamed : Renamed extension name outName) (output : Ends out front outName) :
    OutputAt extension none p out

theorem outputAt_output {s : Settings} {p : Path} (input : p.IsNamed)
    (output : (Job.output s (.file p)).IsNamed) (several : s.multiple = true ∨ s.output = none) :
    OutputAt s.extension s.output p (Job.output s (.file p)) := by
  obtain ⟨front, name, input⟩ := input
  obtain ⟨outFront, outName, output⟩ := output
  obtain ⟨plain, -, given⟩ := FileTree.extension_plain s
  have renamed := renamed_splitName s.extension name
  cases asked : s.output with
  | none =>
    rw [FileTree.output_beside asked] at output ⊢
    exact .beside input renamed (input.of_withExtension plain given output).2
  | some directory =>
    have several : s.multiple = true := several.resolve_right (asked ▸ Option.some_ne_none directory)
    obtain ⟨inside, within⟩ := FileTree.exists_ends_join directory
    rw [FileTree.output_inside asked several input] at output ⊢
    obtain ⟨-, written⟩ := (within input).of_withExtension plain given output
    -- The new extension has left the name in the directory, as if it had been joined to it in the first place.
    have child : (directory.join ⟨name⟩).withExtension s.extension =
        directory.join ⟨(splitName name).1 ++ '.' :: s.extension⟩ := by
      apply eq_of_cut
      rw [written.cut, (within written).cut]
    rw [child]
    exact .inside input renamed (within written)

/-! ## In a tree -/

namespace FileTree

theorem place_eq_named (t : FileTree) (p : Path) : t.place p = (named p).foldl follow (t.start p) := by
  rw [place, steps, ← named]
  split
  · rw [List.foldl_append]
    rfl
  · rfl

theorem isAbsolute_of_plain {name : Piece} (plain : '/' ∉ name) : isAbsolute ⟨name⟩ = false := by
  cases name with
  | nil => rfl
  | cons c name =>
    rw [List.mem_cons, not_or] at plain
    simpa [isAbsolute] using Ne.symm plain.1

theorem isAbsolute_append {s r : List Char} (ne : s ≠ []) :
    isAbsolute ⟨s ++ r⟩ = isAbsolute ⟨s⟩ := by
  obtain ⟨c, s, rfl⟩ := List.exists_cons_of_ne_nil ne
  rfl

theorem named_join (directory : Path) {name : Piece} (visible : name ≠ []) (plain : '/' ∉ name) :
    named (directory.join ⟨name⟩) = named directory ++ [name] ∧
      (directory.join ⟨name⟩).isAbsolute = directory.isAbsolute := by
  obtain ⟨s⟩ := directory
  rw [join, isAbsolute_of_plain plain, if_neg Bool.false_ne_true]
  by_cases empty : s = []
  · subst empty
    have alone : cut (Path.mk name).chars = [] ++ [name] := cut_of_plain plain
    have single : named ⟨name⟩ = [name] := named_of_cut alone visible
    exact ⟨single, isAbsolute_of_plain plain⟩
  · by_cases slash : s.getLast? = some '/'
    · obtain ⟨a, rfl⟩ := List.getLast?_eq_some_iff.mp slash
      have here : named ⟨a ++ ['/']⟩ = (cut a).filter (!·.isEmpty) := by
        rw [named, cut_append, List.filter_append]
        exact List.append_nil _
      rw [if_pos (by simp), here]
      refine ⟨named_of_cut ?_ visible, isAbsolute_append empty⟩
      rw [List.append_assoc, List.singleton_append, cut_append, cut_of_plain plain]
    · rw [if_neg (by simp [empty, slash])]
      refine ⟨named_of_cut ?_ visible, isAbsolute_append empty⟩
      rw [cut_append, cut_of_plain plain]

theorem place_join (t : FileTree) {directory : Path} {name : Piece} (visible : name ≠ [])
    (plain : '/' ∉ name) (dot : name ≠ ['.']) (dots : name ≠ ['.', '.']) :
    t.place (directory.join ⟨name⟩) = t.place directory ++ [name] := by
  obtain ⟨pieces, absolute⟩ := named_join directory visible plain
  rw [place_eq_named, place_eq_named, start, start, absolute, pieces, List.foldl_append, List.foldl_cons,
    List.foldl_nil, follow, if_neg dot, if_neg dots]

def directoryFor (t : FileTree) (directory? : Option Path) (p : Path) : Location :=
  match directory? with
  | some directory => t.place directory
  | none => (t.place p).dropLast

end FileTree

theorem OutputAt.place {extension : Piece} {directory? : Option Path} {p out : Path}
    (output : OutputAt extension directory? p out) (t : FileTree) :
    ∃ name outName, p.fileName? = some name ∧ Renamed extension name outName ∧
      t.place out = t.directoryFor directory? p ++ [outName] := by
  cases output with
  | inside input renamed output =>
    have plain := output.plain _ (List.mem_append_right _ (List.mem_singleton_self _))
    exact ⟨_, _, input.fileName?, renamed, t.place_join output.visible plain output.dot output.dots⟩
  | beside input renamed output =>
    refine ⟨_, _, input.fileName?, renamed, ?_⟩
    rw [FileTree.directoryFor, FileTree.place_of_ends t output, FileTree.place_of_ends t input,
      List.dropLast_concat]

end Vitae
