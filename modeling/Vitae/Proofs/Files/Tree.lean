import Vitae.FileTree

namespace Vitae.FileTree

variable {t u v : FileTree} {l k : Location} {p : Path} {content : ByteArray}

/-! ## Places -/

def follow (l : Location) (piece : Path.Piece) : Location :=
  if piece = ['.'] then l else if piece = ['.', '.'] then l.dropLast else l ++ [piece]

/-- The location that a path means. Whether something is there does not matter. -/
def place (t : FileTree) (p : Path) : Location :=
  (steps p).foldl follow (t.start p)

theorem start_congr (same : u.current = t.current) (p : Path) : u.start p = t.start p := by
  rw [start, start, same]

theorem place_congr (same : u.current = t.current) (p : Path) : u.place p = t.place p := by
  rw [place, place, start_congr same]

theorem requireDirectory_eq_ok {r : Unit} :
    t.requireDirectory l = .ok r ↔ t.entry? l = some .directory := by
  unfold requireDirectory
  split <;> simp_all

theorem bind_eq_ok {ε α β : Type} {x : Except ε α} {f : α → Except ε β} {b : β} :
    x >>= f = .ok b ↔ ∃ a, x = .ok a ∧ f a = .ok b := by
  cases x with
  | error e => simp [bind, Except.bind]
  | ok a => simp [bind, Except.bind]

theorem step_eq_ok {piece : Path.Piece} (h : t.step l piece = .ok k) :
    t.entry? l = some .directory ∧ k = follow l piece := by
  obtain ⟨_, directory, h⟩ := bind_eq_ok.mp h
  refine ⟨requireDirectory_eq_ok.mp directory, ?_⟩
  unfold follow
  split at h
  · case isTrue dot =>
    cases h
    rw [if_pos dot]
  · case isFalse dot =>
    rw [if_neg dot]
    split at h
    · case isTrue dots =>
      cases h
      rw [if_pos dots]
    · case isFalse dots =>
      rw [if_neg dots]
      split at h
      · cases h
      · cases h
        rfl

theorem foldlM_step_eq {pieces : List Path.Piece} (h : pieces.foldlM t.step l = .ok k) :
    k = pieces.foldl follow l := by
  induction pieces generalizing l with
  | nil =>
    cases h
    rfl
  | cons piece pieces ih =>
    rw [List.foldlM_cons] at h
    obtain ⟨m, first, rest⟩ := bind_eq_ok.mp h
    rw [ih rest, (step_eq_ok first).2, List.foldl_cons]

theorem locate_eq (h : t.locate p = .ok l) : l = t.place p := by
  obtain ⟨_, _, h⟩ := bind_eq_ok.mp h
  exact foldlM_step_eq h

/-! ## Entries -/

theorem entry?_eq (ne : l ≠ []) : t.entry? l = t.entries.lookup l :=
  if_neg (by simpa using ne)

theorem lookup_filter_ne (l k : Location) (ne : k ≠ l) (entries : List (Location × Entry)) :
    (entries.filter (·.1 != l)).lookup k = entries.lookup k := by
  induction entries with
  | nil => rfl
  | cons first entries ih =>
    obtain ⟨m, e⟩ := first
    by_cases same : m = l
    · subst same
      have skipped : (k == m) = false := beq_false_of_ne ne
      rw [List.filter_cons_of_neg (by simp), List.lookup_cons, skipped, ih]
    · rw [List.filter_cons_of_pos (by simpa using same), List.lookup_cons, List.lookup_cons, ih]

theorem entry?_put {e : Entry} (ne : l ≠ []) (k : Location) :
    FileTree.entry? (t.put l e) k = if k = l then some e else t.entry? k := by
  by_cases same : k = l
  · subst same
    rw [entry?_eq ne, put, List.lookup_cons_self, if_pos rfl]
  · rw [if_neg same]
    cases k with
    | nil => rfl
    | cons piece k =>
      have apart : (piece :: k == l) = false := beq_false_of_ne same
      rw [entry?_eq (List.cons_ne_nil piece k), entry?_eq (List.cons_ne_nil piece k), put, List.lookup_cons,
        apart]
      exact lookup_filter_ne l (piece :: k) same t.entries

theorem file?_put {e : Entry} (ne : l ≠ []) (other : k ≠ l) : (t.put l e).file? k = t.file? k := by
  rw [file?, file?, entry?_put ne, if_neg other]

theorem file?_eq_some : t.file? l = some content ↔ t.entry? l = some (.file content) := by
  unfold file?
  split <;> simp_all

/-! ## Changes -/

/-- What stands above an entry is a directory. -/
def Closed (t : FileTree) : Prop :=
  ∀ l piece, t.entry? (l ++ [piece]) ≠ none → t.entry? l = some .directory

theorem closed_of_entries (above : ∀ e ∈ t.entries, t.entry? e.1.dropLast = some .directory) :
    t.Closed := by
  intro l piece there
  rw [entry?_eq (List.concat_ne_nil piece l)] at there
  obtain ⟨e, found⟩ := Option.ne_none_iff_exists'.mp there
  obtain ⟨before, after, split, -⟩ := List.lookup_eq_some_iff.mp found
  have mem : (l ++ [piece], e) ∈ t.entries := split ▸ List.mem_append_right before List.mem_cons_self
  simpa using above _ mem

structure Changes (t u : FileTree) (ls : List Location) : Prop where
  current : u.current = t.current
  closed : t.Closed → u.Closed
  directory : ∀ l, t.entry? l = some .directory → u.entry? l = some .directory
  file : ∀ l, l ∉ ls → u.file? l = t.file? l

theorem Changes.refl (t : FileTree) : Changes t t [] :=
  ⟨rfl, id, fun _ => id, fun _ _ => rfl⟩

theorem Changes.trans {ls ks : List Location} (first : Changes t u ls) (second : Changes u v ks) :
    Changes t v (ls ++ ks) where
  current := second.current.trans first.current
  closed h := second.closed (first.closed h)
  directory l h := second.directory l (first.directory l h)
  file l h := by
    rw [List.mem_append, not_or] at h
    rw [second.file l h.2, first.file l h.1]

theorem Changes.step {ls : List Location} (changes : Changes t u ls) {piece : Path.Piece}
    (h : t.step l piece = .ok k) : u.step l piece = .ok k := by
  obtain ⟨directory, -⟩ := step_eq_ok h
  have here : t.requireDirectory l = .ok () := requireDirectory_eq_ok.mpr directory
  have there : u.requireDirectory l = .ok () :=
    requireDirectory_eq_ok.mpr (changes.directory l directory)
  rw [FileTree.step, here] at h
  rw [FileTree.step, there]
  exact h

theorem Changes.foldlM_step {ls : List Location} (changes : Changes t u ls) {pieces : List Path.Piece}
    (h : pieces.foldlM t.step l = .ok k) : pieces.foldlM u.step l = .ok k := by
  induction pieces generalizing l with
  | nil => exact h
  | cons piece pieces ih =>
    rw [List.foldlM_cons] at h ⊢
    obtain ⟨m, first, rest⟩ := bind_eq_ok.mp h
    exact bind_eq_ok.mpr ⟨m, changes.step first, ih rest⟩

theorem Changes.locate {ls : List Location} (changes : Changes t u ls) (h : t.locate p = .ok l) :
    u.locate p = .ok l := by
  obtain ⟨a, checked, found⟩ := bind_eq_ok.mp h
  rw [← start_congr changes.current] at found
  exact bind_eq_ok.mpr ⟨a, checked, changes.foldlM_step found⟩

/-! ## Reading and writing -/

theorem readFile_eq_ok (h : t.readFile p = .ok content) :
    t.locate p = .ok (t.place p) ∧ t.file? (t.place p) = some content := by
  obtain ⟨l, found, h⟩ := bind_eq_ok.mp h
  obtain rfl := locate_eq found
  refine ⟨found, ?_⟩
  rw [file?_eq_some]
  split at h
  · case h_1 entry =>
    cases h
    exact entry
  · cases h
  · cases h

theorem readFile_of_file (found : t.locate p = .ok l) (file : t.file? l = some content) :
    t.readFile p = .ok content := by
  refine bind_eq_ok.mpr ⟨l, found, ?_⟩
  rw [file?_eq_some.mp file]
  rfl

theorem Changes.readFile {ls : List Location} (changes : Changes t u ls) (other : t.place p ∉ ls)
    (h : t.readFile p = .ok content) : u.readFile p = .ok content := by
  obtain ⟨found, file⟩ := readFile_eq_ok h
  refine readFile_of_file (changes.locate found) ?_
  rw [changes.file _ other, file]

theorem closed_put {piece : Path.Piece} {e : Entry} (closed : t.Closed)
    (above : t.entry? l = some .directory)
    (kept : t.entry? (l ++ [piece]) = some .directory → e = .directory) :
    (t.put (l ++ [piece]) e).Closed := by
  have ne : l ++ [piece] ≠ [] := List.concat_ne_nil piece l
  intro k last there
  have directory : t.entry? k = some .directory := by
    rw [entry?_put ne] at there
    by_cases same : k ++ [last] = l ++ [piece]
    · rw [(List.append_inj' same rfl).1, above]
    · rw [if_neg same] at there
      exact closed k last there
  rw [entry?_put ne]
  by_cases same : k = l ++ [piece]
  · rw [if_pos same, kept (same ▸ directory)]
  · rw [if_neg same, directory]

theorem changes_put_file {piece : Path.Piece} (above : t.entry? l = some .directory)
    (free : t.entry? (l ++ [piece]) ≠ some .directory) :
    Changes t (t.put (l ++ [piece]) (.file content)) [l ++ [piece]] where
  current := rfl
  closed closed := closed_put closed above fun there => absurd there free
  directory k h := by
    have other : k ≠ l ++ [piece] := by
      rintro rfl
      exact free h
    rw [entry?_put (List.concat_ne_nil piece l), if_neg other, h]
  file k h := file?_put (List.concat_ne_nil piece l) (List.ne_of_not_mem_cons h)

theorem changes_put_directory {piece : Path.Piece} (above : t.entry? l = some .directory)
    (free : t.entry? (l ++ [piece]) = none) : Changes t (t.put (l ++ [piece]) .directory) [] where
  current := rfl
  closed closed := closed_put closed above fun _ => rfl
  directory k h := by
    rw [entry?_put (List.concat_ne_nil piece l), h, ite_self]
  file k _ := by
    by_cases same : k = l ++ [piece]
    · rw [same, file?, file?, entry?_put (List.concat_ne_nil piece l), if_pos rfl, free]
    · exact file?_put (List.concat_ne_nil piece l) same

/-! ## Writing -/

def named (p : Path) : List Path.Piece :=
  (Path.cut p.chars).filter (!·.isEmpty)

theorem locateLast_eq_ok {last? : Option Path.Piece} (h : t.locateLast p = .ok (l, last?)) :
    checkPath p = .ok () ∧ (named p).dropLast.foldlM t.step (t.start p) = .ok l ∧
      last? = (named p).getLast? := by
  obtain ⟨_, checked, h⟩ := bind_eq_ok.mp h
  obtain ⟨above, found, h⟩ := bind_eq_ok.mp h
  obtain ⟨_, _, h⟩ := bind_eq_ok.mp h
  cases h
  exact ⟨checked, found, rfl⟩

theorem steps_eq_named (bare : (p.chars.getLast? == some '/') = false) : steps p = named p := by
  rw [steps, bare, Bool.false_and]
  rfl

theorem step_name {piece : Path.Piece} (name : isDots piece = false) (h : t.step l piece = .ok k) :
    t.entry? l = some .directory ∧ k = l ++ [piece] := by
  simp only [isDots, Bool.or_eq_false_iff, beq_eq_false_iff_ne] at name
  obtain ⟨above, eq⟩ := step_eq_ok h
  rw [follow, if_neg name.1, if_neg name.2] at eq
  exact ⟨above, eq⟩

theorem writeFile_eq_put (h : t.writeFile p content = .ok u) :
    ∃ l piece, t.locate p = .ok (l ++ [piece]) ∧ t.entry? l = some .directory ∧
      t.entry? (l ++ [piece]) ≠ some .directory ∧ u = t.put (l ++ [piece]) (.file content) := by
  obtain ⟨⟨l, last?⟩, looked, h⟩ := bind_eq_ok.mp h
  obtain ⟨checked, found, lastEq⟩ := locateLast_eq_ok looked
  cases last? with
  | none => cases h
  | some piece =>
    dsimp only at h
    split at h
    · cases h
    · case isFalse name =>
      simp only [Bool.or_eq_true, not_or, Bool.not_eq_true] at name
      obtain ⟨k, stepped, h⟩ := bind_eq_ok.mp h
      have pieces : steps p = (named p).dropLast ++ [piece] := by
        obtain ⟨front, cut⟩ := List.getLast?_eq_some_iff.mp lastEq.symm
        rw [steps_eq_named name.2, cut, List.dropLast_concat]
      -- Writing follows the last piece from where the others lead, and looking up follows all of them in one run.
      have located : t.locate p = .ok k := by
        refine bind_eq_ok.mpr ⟨(), checked, ?_⟩
        rw [pieces, List.foldlM_append]
        refine bind_eq_ok.mpr ⟨l, found, ?_⟩
        rw [List.foldlM_cons]
        exact bind_eq_ok.mpr ⟨k, stepped, rfl⟩
      obtain ⟨above, rfl⟩ := step_name name.1 stepped
      refine ⟨l, piece, located, above, ?_, ?_⟩
      · intro directory
        rw [directory] at h
        cases h
      · split at h <;> cases h
        rfl

theorem writeFile_eq_ok (h : t.writeFile p content = .ok u) :
    Changes t u [t.place p] ∧ u.readFile p = .ok content := by
  obtain ⟨l, piece, located, above, free, rfl⟩ := writeFile_eq_put h
  have changes : Changes t (t.put (l ++ [piece]) (.file content)) [l ++ [piece]] :=
    changes_put_file above free
  rw [← locate_eq located]
  refine ⟨changes, readFile_of_file (changes.locate located) ?_⟩
  rw [file?_eq_some, entry?_put (List.concat_ne_nil piece l), if_pos rfl]

theorem entry?_of_writeFile (h : t.writeFile p content = .ok u) :
    u.entry? (u.place p) = some (.file content) ∧ ∀ k, k ≠ u.place p → u.entry? k = t.entry? k := by
  obtain ⟨l, piece, located, -, -, rfl⟩ := writeFile_eq_put h
  have ne : l ++ [piece] ≠ [] := List.concat_ne_nil piece l
  have here : (t.put (l ++ [piece]) (.file content)).place p = l ++ [piece] :=
    (place_congr rfl p).trans (locate_eq located).symm
  rw [here]
  refine ⟨?_, fun k other => ?_⟩
  · rw [entry?_put ne, if_pos rfl]
  · rw [entry?_put ne, if_neg other]

theorem makeDirectory_eq_ok (h : t.makeDirectory p = .ok u) : Changes t u [] := by
  obtain ⟨⟨l, last?⟩, looked, h⟩ := bind_eq_ok.mp h
  cases last? with
  | none => cases h
  | some piece =>
    dsimp only at h
    split at h
    · cases h
    · case isFalse name =>
      obtain ⟨k, stepped, h⟩ := bind_eq_ok.mp h
      obtain ⟨above, rfl⟩ := step_name (Bool.not_eq_true _ ▸ name) stepped
      cases free : t.entry? (l ++ [piece]) with
      | some e =>
        rw [free] at h
        cases h
      | none =>
        rw [free] at h
        cases h
        exact changes_put_directory above free

end Vitae.FileTree
