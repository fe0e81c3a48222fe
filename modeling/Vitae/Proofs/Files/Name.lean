import Vitae.Output
import Mathlib.Data.List.Induction

/-!
# Names of files

The path of a file ends in a name, which is neither a dot nor two dots. A new extension changes the name and
leaves the pieces in front of it alone, unless the name is left with two dots.
-/

namespace Vitae.Path

variable {p : Path} {front : List Piece} {name extension : Piece}

/-! ## Cutting -/

theorem cut_cons_slash (s : List Char) : cut ('/' :: s) = [] :: cut s := rfl

theorem cut_cons {c : Char} (ne : c ≠ '/') {s : List Char} {first : Piece} {rest : List Piece}
    (h : cut s = first :: rest) : cut (c :: s) = (c :: first) :: rest := by
  have rest : Text.split '/' s = first :: rest := h
  change Text.split '/' (c :: s) = _
  rw [Text.split, if_neg ne, rest]

theorem exists_cut (s : List Char) : ∃ first rest, cut s = first :: rest :=
  List.exists_cons_of_ne_nil (Text.split_ne_nil '/' s)

theorem cut_append (a s : List Char) : cut (a ++ '/' :: s) = cut a ++ cut s := by
  induction a with
  | nil => rfl
  | cons c a ih =>
    by_cases slash : c = '/'
    · subst slash
      rw [List.cons_append, cut_cons_slash, ih]
      rfl
    · obtain ⟨first, rest, cutA⟩ := exists_cut a
      rw [cutA, List.cons_append] at ih
      rw [List.cons_append, cut_cons slash ih, cut_cons slash cutA, List.cons_append]

theorem cut_of_plain {s : List Char} (plain : '/' ∉ s) : cut s = [s] := by
  induction s with
  | nil => rfl
  | cons c s ih =>
    rw [List.mem_cons, not_or] at plain
    exact cut_cons (Ne.symm plain.1) (ih plain.2)

theorem plain_of_mem_cut {s : List Char} : ∀ piece ∈ cut s, '/' ∉ piece := by
  induction s with
  | nil =>
    intro piece mem
    rw [List.mem_singleton.mp mem]
    exact List.not_mem_nil
  | cons c s ih =>
    by_cases slash : c = '/'
    · subst slash
      rw [cut_cons_slash, List.forall_mem_cons]
      exact ⟨List.not_mem_nil, ih⟩
    · obtain ⟨first, rest, cutS⟩ := exists_cut s
      rw [cutS, List.forall_mem_cons] at ih
      rw [cut_cons slash cutS, List.forall_mem_cons]
      exact ⟨List.not_mem_cons_of_ne_of_not_mem (Ne.symm slash) ih.1, ih.2⟩

theorem glue_cons_cons (first second : Piece) (rest : List Piece) :
    glue (first :: second :: rest) = first ++ '/' :: glue (second :: rest) := by
  simp [glue, Text.joinWith, List.intercalate]

theorem cut_glue {ps : List Piece} (ne : ps ≠ []) (plain : ∀ piece ∈ ps, '/' ∉ piece) :
    cut (glue ps) = ps := by
  induction ps with
  | nil => exact absurd rfl ne
  | cons first ps ih =>
    rw [List.forall_mem_cons] at plain
    cases ps with
    | nil =>
      have single : glue [first] = first := by simp [glue, Text.joinWith, List.intercalate]
      rw [single, cut_of_plain plain.1]
    | cons second rest =>
      rw [glue_cons_cons, cut_append, cut_of_plain plain.1, ih (List.cons_ne_nil _ _) plain.2]
      rfl

theorem glue_concat_append (front : List Piece) (s r : List Char) :
    glue (front ++ [s ++ r]) = glue (front ++ [s]) ++ r := by
  induction front with
  | nil => simp [glue, Text.joinWith, List.intercalate]
  | cons first front ih =>
    cases front with
    | nil =>
      simp only [List.cons_append, List.nil_append, glue_cons_cons]
      simp [glue, Text.joinWith, List.intercalate]
    | cons second rest =>
      simp only [List.cons_append, glue_cons_cons] at ih ⊢
      rw [ih, List.append_assoc, List.cons_append]

theorem glue_concat_nil (first : Piece) (rest : List Piece) :
    glue (first :: rest ++ [[]]) = glue (first :: rest) ++ ['/'] := by
  induction rest generalizing first with
  | nil => simp [glue, Text.joinWith, List.intercalate]
  | cons second rest ih =>
    rw [List.cons_append, List.cons_append, glue_cons_cons, glue_cons_cons, ← List.cons_append, ih,
      List.append_assoc, List.cons_append]

/-! ## Names -/

structure Ends (p : Path) (front : List Piece) (name : Piece) : Prop where
  cut : cut p.chars = front ++ [name]
  visible : name ≠ []
  dot : name ≠ ['.']
  dots : name ≠ ['.', '.']

def IsNamed (p : Path) : Prop :=
  ∃ front name, Ends p front name

theorem pieces_of_cut (h : cut p.chars = front ++ [name]) (visible : name ≠ []) (dot : name ≠ ['.']) :
    p.pieces = front ++ [name] := by
  have busy : isIdle name = false := by
    simp [isIdle, visible, dot]
  rw [pieces, h, dropIdle, List.reverse_concat, List.dropWhile_cons_of_neg (by simp [busy])]
  simp

theorem fileName?_of_dots (h : cut p.chars = front ++ [['.', '.']]) : p.fileName? = none := by
  rw [fileName?, pieces_of_cut h (by decide) (by decide), List.getLast?_concat]
  rfl

theorem Ends.pieces (ends : Ends p front name) : p.pieces = front ++ [name] :=
  pieces_of_cut ends.cut ends.visible ends.dot

theorem Ends.fileName? (ends : Ends p front name) : p.fileName? = some name := by
  rw [Path.fileName?, ends.pieces, List.getLast?_concat, Option.filter_some, if_pos]
  simpa using ends.dots

theorem Ends.plain (ends : Ends p front name) : ∀ piece ∈ front ++ [name], '/' ∉ piece := by
  rw [← ends.cut]
  exact plain_of_mem_cut

theorem Ends.chars (ends : Ends p front name) : p.chars = glue (front ++ [name]) := by
  rw [← ends.cut, glue_cut]

theorem Ends.cut_replaceName (ends : Ends p front name) {other : Piece} (plain : '/' ∉ other) :
    Path.cut (p.replaceName other).chars = front ++ [other] := by
  have plainFront : ∀ piece ∈ front ++ [other], '/' ∉ piece := by
    rw [List.forall_mem_append, List.forall_mem_singleton]
    exact ⟨(List.forall_mem_append.mp ends.plain).1, plain⟩
  rw [replaceName, ends.pieces, List.dropLast_concat]
  exact cut_glue (by simp) plainFront

/-! ## Extensions -/

theorem splitName_append {stem old : List Char} (bare : '.' ∉ old) : splitName (stem ++ '.' :: old) =
    if stem.isEmpty then (stem ++ '.' :: old, none) else (stem, some old) := by
  have ordinary : ∀ c ∈ old.reverse, (c != '.') = true := by
    intro c mem
    rw [bne_iff_ne]
    rintro rfl
    exact bare (List.mem_reverse.mp mem)
  have behind : ((stem ++ '.' :: old).reverse.takeWhile (· != '.')).reverse = old := by
    rw [List.reverse_append, List.reverse_cons, List.append_assoc, List.takeWhile_append_of_pos ordinary]
    simp
  have front : (stem ++ '.' :: old).take ((stem ++ '.' :: old).length - old.length - 1) = stem := by
    have count : (stem ++ '.' :: old).length - old.length - 1 = stem.length := by
      rw [List.length_append, List.length_cons]
      omega
    rw [count, List.take_left]
  have shorter : old.length < (stem ++ '.' :: old).length := by
    rw [List.length_append, List.length_cons]
    omega
  simp only [splitName, behind, front, shorter, decide_true, Bool.true_and]
  cases stem.isEmpty <;> rfl

theorem splitName_of_no_dot {name : Piece} (bare : '.' ∉ name) : splitName name = (name, none) := by
  have ordinary : ∀ c ∈ name.reverse, (c != '.') = true := by
    intro c mem
    rw [bne_iff_ne]
    rintro rfl
    exact bare (List.mem_reverse.mp mem)
  have behind : (name.reverse.takeWhile (· != '.')).reverse = name := by
    rw [← List.append_nil name.reverse, List.takeWhile_append_of_pos ordinary]
    simp
  simp [splitName, behind]

theorem splitName_cases (name : Piece) : splitName name = (name, none) ∨
    ∃ stem old, name = stem ++ '.' :: old ∧ stem ≠ [] ∧ '.' ∉ old ∧ splitName name = (stem, some old) := by
  by_cases dot : '.' ∈ name
  · obtain ⟨stem, old, cut, bare⟩ : ∃ stem old, name = stem ++ '.' :: old ∧ '.' ∉ old := by
      obtain ⟨old, stem, cut, bare⟩ := List.eq_append_cons_of_mem (List.mem_reverse.mpr dot)
      refine ⟨stem.reverse, old.reverse, ?_, fun mem => bare (List.mem_reverse.mp mem)⟩
      rw [← List.reverse_reverse name, cut]
      simp
    rw [cut, splitName_append bare]
    cases stem with
    | nil => exact .inl rfl
    | cons c stem => exact .inr ⟨c :: stem, old, rfl, List.cons_ne_nil _ _, bare, rfl⟩
  · exact .inl (splitName_of_no_dot dot)

/-! ## A new extension -/

theorem dropBytes_zero (r : List Char) : dropBytes 0 r = r := by
  cases r with
  | nil => rfl
  | cons c r =>
    have large : ¬c.utf8Size ≤ 0 := by
      have := c.utf8Size_pos
      omega
    rw [dropBytes, if_neg large]

theorem dropBytes_reverse (old : List Char) (r : List Char) :
    dropBytes (String.ofList old).utf8ByteSize (old.reverse ++ r) = r := by
  induction old using List.reverseRecOn with
  | nil => exact dropBytes_zero r
  | append_singleton old c ih =>
    have size : (String.ofList (old ++ [c])).utf8ByteSize
        = (String.ofList old).utf8ByteSize + c.utf8Size := by
      simp
    rw [List.reverse_concat, List.cons_append, size, dropBytes, if_pos (Nat.le_add_left _ _),
      Nat.add_sub_cancel, ih]

theorem ends_replaceName (ends : Ends p front name) {stem : Piece} (visible : stem ≠ [])
    (plainStem : '/' ∉ stem) (plain : '/' ∉ extension) (given : extension ≠ []) :
    Ends (p.replaceName (stem ++ '.' :: extension)) front (stem ++ '.' :: extension) := by
  have long : 3 ≤ (stem ++ '.' :: extension).length := by
    have := List.length_pos_iff.mpr visible
    have := List.length_pos_iff.mpr given
    rw [List.length_append, List.length_cons]
    omega
  refine ⟨ends.cut_replaceName ?_, ?_, ?_, ?_⟩
  · simp [plainStem, plain]
  all_goals
    intro eq
    rw [eq] at long
    simp at long

/-- A path whose name is left with two dots when its extension is taken off becomes the path of the
directory above. -/
theorem Ends.withExtension (ends : Ends p front name) (plain : '/' ∉ extension) (given : extension ≠ []) :
    (splitName name).1 ≠ ['.'] ∧
        Ends (p.withExtension extension) front ((splitName name).1 ++ '.' :: extension) ∨
      (splitName name).1 = ['.'] ∧ Path.cut (p.withExtension extension).chars = front ++ [['.', '.']] := by
  have plainName : '/' ∉ name := ends.plain name (by simp)
  have empty : extension.isEmpty = false := List.isEmpty_eq_false_iff.mpr given
  rcases splitName_cases name with whole | ⟨stem, old, cut, visible, bare, split⟩
  · left
    have none : p.extension? = none := by
      rw [extension?, ends.fileName?, Option.bind_some, whole]
    rw [Path.withExtension, none]
    simp only [ends.fileName?, whole, empty]
    exact ⟨ends.dot, ends_replaceName ends ends.visible plainName plain given⟩
  · have some : p.extension? = some old := by
      rw [extension?, ends.fileName?, Option.bind_some, split]
    have chars : p.chars = glue (front ++ [stem ++ ['.']]) ++ old := by
      rw [ends.chars, ← glue_concat_append, cut, List.append_assoc]
      rfl
    have shortened : (dropBytes (String.ofList old).utf8ByteSize p.chars.reverse).reverse =
        glue (front ++ [stem ++ ['.']]) := by
      rw [chars, List.reverse_append, dropBytes_reverse, List.reverse_reverse]
    have plainStem : '/' ∉ stem := fun mem => plainName (by rw [cut]; simp [mem])
    have cutShortened : Path.cut (glue (front ++ [stem ++ ['.']])) = front ++ [stem ++ ['.']] := by
      apply cut_glue (by simp)
      rw [List.forall_mem_append, List.forall_mem_singleton]
      exact ⟨(List.forall_mem_append.mp ends.plain).1, by simp [plainStem]⟩
    rw [Path.withExtension, some]
    simp only [shortened, split]
    -- A name like `..old` is left with two dots, and a path that ends in them has no name to be given the extension.
    by_cases dot : stem = ['.']
    · right
      subst dot
      have nameless : Path.fileName? ⟨glue (front ++ [['.'] ++ ['.']])⟩ = none :=
        fileName?_of_dots cutShortened
      simp only [nameless]
      exact ⟨trivial, cutShortened⟩
    · left
      have endsShortened : Ends ⟨glue (front ++ [stem ++ ['.']])⟩ front (stem ++ ['.']) := by
        refine ⟨cutShortened, by simp, ?_, ?_⟩
        · intro eq
          exact visible (by simpa using eq)
        · intro eq
          exact dot ((List.append_left_inj ['.']).mp eq)
      have stemOf : (splitName (stem ++ ['.'])).1 = stem := by
        rw [splitName_append (by simp)]
        simp [visible]
      simp only [endsShortened.fileName?, stemOf, empty]
      exact ⟨dot, ends_replaceName endsShortened visible plainStem plain given⟩

theorem Ends.unique {other : List Piece} {last : Piece} (ends : Ends p front name)
    (h : Path.cut p.chars = other ++ [last]) : front = other ∧ name = last := by
  rw [ends.cut] at h
  obtain ⟨same, eq⟩ := List.append_inj' h rfl
  exact ⟨same, List.head_eq_of_cons_eq eq⟩

theorem Ends.of_withExtension {outFront : List Piece} {outName : Piece} (ends : Ends p front name)
    (plain : '/' ∉ extension) (given : extension ≠ [])
    (written : Ends (p.withExtension extension) outFront outName) :
    (splitName name).1 ≠ ['.'] ∧
      Ends (p.withExtension extension) front ((splitName name).1 ++ '.' :: extension) := by
  rcases ends.withExtension plain given with ok | ⟨-, dots⟩
  · exact ok
  · exact absurd (written.unique dots).2 written.dots

/-! ## A name in a directory -/

theorem exists_cut_join (directory : Path) : ∃ front, ∀ name : Piece, name ≠ [] → '/' ∉ name →
    cut (directory.join ⟨name⟩).chars = front ++ [name] := by
  have relative (name : Piece) (visible : name ≠ []) (plain : '/' ∉ name) :
      isAbsolute ⟨name⟩ = false := by
    cases name with
    | nil => exact absurd rfl visible
    | cons c name =>
      rw [List.mem_cons, not_or] at plain
      simpa [isAbsolute] using Ne.symm plain.1
  by_cases empty : directory.chars = []
  · refine ⟨[], fun name visible plain => ?_⟩
    rw [join, relative name visible plain, empty]
    exact cut_of_plain plain
  · by_cases slash : directory.chars.getLast? = some '/'
    · obtain ⟨a, eq⟩ := List.getLast?_eq_some_iff.mp slash
      refine ⟨cut a, fun name visible plain => ?_⟩
      rw [join, relative name visible plain, slash]
      simp only [Bool.false_eq_true, if_false, beq_self_eq_true, Bool.or_true, if_true]
      rw [eq, List.append_assoc, List.singleton_append, cut_append, cut_of_plain plain]
    · refine ⟨cut directory.chars, fun name visible plain => ?_⟩
      have inside : (directory.chars.isEmpty || directory.chars.getLast? == some '/') = false := by
        simp [empty, slash]
      rw [join, relative name visible plain, inside]
      simp only [Bool.false_eq_true, if_false]
      rw [cut_append, cut_of_plain plain]

end Vitae.Path
