import Vitae.Proofs.Reading.Step

/-!
# What a reading shows

A step of a reading takes some tokens off the source, moves the stack of what is open just as the marks it
passes do, and meets no exposed character. By induction the same is true of every run (`Reads.lex`,
`Reads.marks`, `Reads.escaped`).
-/

namespace Vitae.Tex

variable {g : Dialect} {p q : Place}

/-! ## Tokens -/

def Dialect.Writes (g : Dialect) : Token → Prop
  | .word w => w ∈ structuralWords ++ g.commands
  | .symbol c => c ∈ '\\' :: characterSymbols
  | .dangling => False
  | .char _ => True

def Dialect.Passes (g : Dialect) (x : Token × Tex) : Prop :=
  g.Writes x.1 ∧ (g.guarded → ∀ t, LooksAhead x.1 x.2 t → ¬ReadsOption t)

theorem Dialect.passes_char (g : Dialect) {x : Token × Tex} (h : ∃ c, x.1 = .char c) : g.Passes x := by
  obtain ⟨⟨token, t⟩, c, rfl⟩ := x, h
  exact ⟨trivial, by rintro - _ ⟨⟩⟩

theorem Dialect.passes_symbol (g : Dialect) {c : Char} (h : c ∈ characterSymbols) (t : Tex) :
    g.Passes (.symbol c, t) := by
  refine ⟨List.mem_cons_of_mem _ h, ?_⟩
  rintro - _ (_ | _)
  exact absurd h (by decide)

theorem Dialect.passes_word (g : Dialect) {w : String} (h : w ∈ structuralWords ++ g.commands)
    (item : w ≠ "item") (begin_ : w ≠ "begin") (t : Tex) : g.Passes (.word w, t) := by
  refine ⟨h, ?_⟩
  rintro - _ (_ | name | ⟨name, -, -⟩)
  · exact absurd name item
  · exact absurd name begin_

theorem isAlpha_of_mem_characterSymbols {c : Char} (h : c ∈ characterSymbols) : c.isAlpha = false := by
  simp only [characterSymbols, List.mem_cons, List.not_mem_nil, or_false] at h
  rcases h with rfl | rfl | rfl | rfl | rfl | rfl | rfl | rfl <;> rfl

theorem startsOption_line (t : Tex) : startsOption ('\n' :: t) = startsOption t := rfl

theorem not_readsOption {t : Tex} (h : startsOption t = false) : ¬ReadsOption t := by
  rw [← startsOption_iff, h]
  simp

def Dialect.PassesTo (g : Dialect) (s t : Tex) : Prop :=
  ∃ front, lex s = front ++ lex t ∧ ∀ x ∈ front, g.Passes x

theorem Dialect.PassesTo.trans {s t u : Tex} (first : g.PassesTo s t) (second : g.PassesTo t u) :
    g.PassesTo s u := by
  obtain ⟨front, cut, passes⟩ := first
  obtain ⟨more, cutMore, passesMore⟩ := second
  exact ⟨front ++ more, by rw [cut, cutMore, List.append_assoc],
    List.forall_mem_append.mpr ⟨passes, passesMore⟩⟩

theorem Dialect.PassesTo.subset {s t : Tex} (h : g.PassesTo s t) : lex t ⊆ lex s := by
  obtain ⟨front, cut, -⟩ := h
  rw [cut]
  exact List.subset_append_right front (lex t)

theorem passesTo_opening {n : String} (plain : '\\' ∉ n.toList) (inside : '}' ∉ n.toList)
    (other : n ≠ "multicols") (t : Tex) : g.PassesTo (opening n ++ t) t := by
  obtain ⟨front, cut, chars⟩ := lex_environment (w := "begin") (by decide) (by decide) plain t
  refine ⟨(.word "begin", braced n ++ t) :: front, ?_, ?_⟩
  · simpa [opening, command] using cut
  · rw [List.forall_mem_cons]
    refine ⟨⟨List.mem_append_left _ (by decide), ?_⟩, fun x mem => g.passes_char (chars x mem)⟩
    -- Behind the name an option is looked for only where a number of columns is expected.
    rintro - r (_ | name | ⟨-, columnsInside, columns⟩)
    · exact absurd name (by decide)
    · exact absurd (String.toList_inj.mp (braced_append_inj inside (by decide) columns).1) other

theorem passesTo_closing {n : String} (plain : '\\' ∉ n.toList) (t : Tex) :
    g.PassesTo (closing n ++ t) t := by
  obtain ⟨front, cut, chars⟩ := lex_environment (w := "end") (by decide) (by decide) plain t
  refine ⟨(.word "end", braced n ++ t) :: front, ?_, ?_⟩
  · simpa [closing, command] using cut
  · rw [List.forall_mem_cons]
    exact ⟨g.passes_word (List.mem_append_left _ (by decide)) (by decide) (by decide) _,
      fun x mem => g.passes_char (chars x mem)⟩

theorem Target.Hardened.lex (g : Dialect) {u : Tex} (h : Hardened u) (t : Tex) :
    g.PassesTo (u ++ t) t := by
  induction h with
  | nil => exact ⟨[], rfl, by simp⟩
  | @escaped c u mark _ ih =>
      obtain ⟨front, cut, passes⟩ := ih
      have mem : c ∈ characterSymbols := by
        rcases mark with rfl | rfl <;> decide
      refine ⟨(.symbol c, u ++ t) :: front, ?_, ?_⟩
      · rw [List.cons_append, List.cons_append, lex_symbol (isAlpha_of_mem_characterSymbols mem), cut,
          List.cons_append]
      · rw [List.forall_mem_cons]
        exact ⟨g.passes_symbol mem _, passes⟩
  | @plain c u _ safe _ _ ih =>
      obtain ⟨front, cut, passes⟩ := ih
      have ne : c ≠ '\\' := by
        rintro rfl
        exact safe (by decide)
      refine ⟨(.char c, u ++ t) :: front, ?_, ?_⟩
      · rw [List.cons_append, lex_char ne, cut, List.cons_append]
      · rw [List.forall_mem_cons]
        exact ⟨g.passes_char ⟨c, rfl⟩, passes⟩

theorem Step.lex (step : Step g p q) : g.PassesTo p.rest q.rest := by
  cases step with
  | @plain fs c t self =>
      exact ⟨[(.char c, t)], lex_char (isPlain_iff.mp self).1 t,
        by simpa using g.passes_char ⟨c, rfl⟩⟩
  | @symbol fs c t mem =>
      exact ⟨[(.symbol c, t)], lex_symbol (isAlpha_of_mem_characterSymbols mem) t,
        by simpa using g.passes_symbol mem t⟩
  | @spacedBreak fs t =>
      refine ⟨[(.symbol '\\', '[' :: t)], lex_symbol rfl _, ?_⟩
      simp only [List.mem_singleton, forall_eq]
      refine ⟨by simp [Dialect.Writes], ?_⟩
      -- The length stands right behind the break, so no blank does.
      rintro - _ ⟨blank⟩
      cases blank
  | @lineBreak fs t guard =>
      refine ⟨[(.symbol '\\', '\n' :: t), (.char '\n', t)], ?_, ?_⟩
      · rw [lex_symbol rfl, lex_char (by decide)]
        rfl
      · simp only [List.mem_cons, List.not_mem_nil, or_false, forall_eq_or_imp, forall_eq]
        refine ⟨⟨by simp [Dialect.Writes], ?_⟩, g.passes_char ⟨_, rfl⟩⟩
        rintro guarded _ ⟨-⟩
        exact not_readsOption ((startsOption_line t).trans (guard guarded))
  | @word fs w t mem stop =>
      obtain ⟨ne, letters, other⟩ := Dialect.command mem
      refine ⟨[(.word w, t)], lex_control ne letters stop, ?_⟩
      simp only [List.mem_singleton, forall_eq]
      exact g.passes_word (List.mem_append_right _ mem) (other _ (by decide)) (other _ (by decide)) t
  | @item fs t stop guard =>
      refine ⟨[(.word "item", t)], lex_control (by decide) (by decide) stop, ?_⟩
      simp only [List.mem_singleton, forall_eq]
      refine ⟨List.mem_append_left _ (by decide), ?_⟩
      rintro - _ (_ | - | ⟨name, -, -⟩)
      · exact not_readsOption guard
      · exact absurd name (by decide)
  | @openGroup fs t =>
      exact ⟨[(.char '{', t)], lex_char (by decide) t, by simpa using g.passes_char ⟨_, rfl⟩⟩
  | @closeGroup fs t =>
      exact ⟨[(.char '}', t)], lex_char (by decide) t, by simpa using g.passes_char ⟨_, rfl⟩⟩
  | @openBlock fs n t mem =>
      have name : ∀ n ∈ blockNames, '\\' ∉ n.toList ∧ '}' ∉ n.toList ∧ n ≠ "multicols" := by decide
      exact passesTo_opening (name n mem).1 (name n mem).2.1 (name n mem).2.2 t
  | @openColumns fs n t digits guard =>
      have inside : '}' ∉ n := fun mem => absurd (List.all_eq_true.mp digits _ mem) (by decide)
      have plain : '\\' ∉ n := fun mem => absurd (List.all_eq_true.mp digits _ mem) (by decide)
      obtain ⟨front, cut, chars⟩ :=
        lex_environment (w := "begin") (n := "multicols".toList) (by decide) (by decide) (by decide)
          (braced n ++ t)
      obtain ⟨number, cutNumber, charsNumber⟩ :=
        lex_append_of_no_backslash (s := braced n) (by simp [braced, plain]) t
      refine ⟨(.word "begin", braced "multicols" ++ (braced n ++ t)) :: (front ++ number), ?_, ?_⟩
      · rw [cutNumber] at cut
        simpa [opening, command] using cut
      · rw [List.forall_mem_cons, List.forall_mem_append]
        refine ⟨⟨List.mem_append_left _ (by decide), ?_⟩, fun x mem => g.passes_char (chars x mem),
          fun x mem => g.passes_char (charsNumber x mem)⟩
        rintro - r (_ | name | ⟨-, other, columns⟩)
        · exact absurd name (by decide)
        · rw [← (braced_append_inj inside other (List.append_cancel_left columns)).2]
          exact not_readsOption guard
  | @close fs n t mem =>
      have name : ∀ n ∈ "multicols" :: blockNames, '\\' ∉ n.toList := by decide
      exact passesTo_closing (name n mem) t
  | @target fs u t hard =>
      obtain ⟨front, cut, passes⟩ := hard.lex g ('}' :: '{' :: t)
      have word : lex (linkStart ++ (u ++ '}' :: '{' :: t)) =
          (.word "href", '{' :: (u ++ '}' :: '{' :: t)) ::
            (.char '{', u ++ '}' :: '{' :: t) :: lex (u ++ '}' :: '{' :: t) := by
        rw [linkStart, List.append_assoc, lex_control (by decide) (by decide) rfl]
        simp only [List.cons_append, List.nil_append]
        rw [lex_char (by decide)]
      refine ⟨(.word "href", '{' :: (u ++ '}' :: '{' :: t)) :: (.char '{', u ++ '}' :: '{' :: t) ::
        (front ++ [(.char '}', '{' :: t)]), ?_, ?_⟩
      · rw [word, cut, lex_char (by decide)]
        simp
      · simp only [List.forall_mem_cons, List.forall_mem_append, List.not_mem_nil, false_implies,
          implies_true, and_true]
        exact ⟨g.passes_word (List.mem_append_left _ (by decide)) (by decide) (by decide) _,
          g.passes_char ⟨_, rfl⟩, passes, g.passes_char ⟨_, rfl⟩⟩

theorem Reads.lex (reads : Reads g p q) : g.PassesTo p.rest q.rest := by
  induction reads with
  | refl => exact ⟨[], rfl, by simp⟩
  | tail _ step ih => exact ih.trans step.lex

/-! ## Nesting -/

theorem isOrdinary_of_isPlain {c : Char} (h : isPlain c = true) : isOrdinary c = true := by
  obtain ⟨backslash, opens, closes, -⟩ := isPlain_iff.mp h
  simp [isOrdinary, backslash, opens, closes]

theorem Target.Hardened.marks {u : Tex} (h : Hardened u) (t : Tex) :
    Tex.marks (u ++ t) = Tex.marks t := by
  induction h with
  | nil => rfl
  | @escaped c u mark _ ih =>
      have letter : c.isAlpha = false := by
        rcases mark with rfl | rfl <;> rfl
      rw [List.cons_append, List.cons_append, marks_symbol letter, ih]
  | @plain c u _ safe _ _ ih =>
      have ordinary : isOrdinary c = true :=
        isOrdinary_of_class (p := fun c => !unsafeChars.contains c) ⟨rfl, rfl, rfl⟩ (by simpa using safe)
      rw [List.cons_append, marks_ordinary ordinary, ih]

/-- The marks that a step passes lead from what is open before it to what is open after it. No step opens
the document. -/
theorem Step.marks (step : Step g p q) :
    ∃ ms, Tex.marks p.rest = ms ++ Tex.marks q.rest ∧
      nest p.frames (ms.map Prod.fst) = some q.frames ∧
      ∀ m ∈ ms, m.1 ≠ .opens (.environment "document") := by
  have inside : ∀ n ∈ "multicols" :: blockNames, '}' ∉ n.toList ∧ n ≠ "document" := by decide
  cases step with
  | plain self => exact ⟨[], marks_ordinary (isOrdinary_of_isPlain self) _, rfl, by simp⟩
  | symbol mem => exact ⟨[], marks_symbol (isAlpha_of_mem_characterSymbols mem) _, rfl, by simp⟩
  | spacedBreak => exact ⟨[], marks_symbol rfl _, rfl, by simp⟩
  | lineBreak => exact ⟨[], (marks_symbol rfl _).trans (marks_ordinary rfl _), rfl, by simp⟩
  | word mem stop =>
      obtain ⟨ne, letters, other⟩ := Dialect.command mem
      exact ⟨[], marks_control ne letters (other _ (by decide)) (other _ (by decide)) stop, rfl, by simp⟩
  | item stop =>
      exact ⟨[], marks_control (by decide) (by decide) (by decide) (by decide) stop, rfl, by simp⟩
  | openGroup => exact ⟨[(.opens .group, _)], marks_open _, rfl, by simp⟩
  | closeGroup => exact ⟨[(.closes .group, _)], marks_close _, by simp [nest], by simp⟩
  | @openBlock fs n t mem =>
      obtain ⟨name, other⟩ := inside n (List.mem_cons_of_mem _ mem)
      exact ⟨[(.opens (.environment n), t)], marks_opening name _, rfl, by simpa using other⟩
  | @openColumns fs n t digits guard =>
      have ordinary : n.all isOrdinary = true := List.all_eq_true.mpr fun c mem =>
        isOrdinary_of_class ⟨rfl, rfl, rfl⟩ (List.all_eq_true.mp digits c mem)
      have number : Tex.marks (braced n ++ t) =
          [(.opens .group, n ++ '}' :: t), (.closes .group, t)] ++ Tex.marks t := by
        simp [braced, marks_append_of_ordinary ordinary]
      refine ⟨(.opens (.environment "multicols"), braced n ++ t) ::
        [(.opens .group, n ++ '}' :: t), (.closes .group, t)], ?_, ?_, by simp⟩
      · rw [marks_opening (by decide), number]
        rfl
      · simp [nest]
  | @close fs n t mem =>
      exact ⟨[(.closes (.environment n), t)], marks_closing (inside n mem).1 _, by simp [nest], by simp⟩
  | @target fs u t hard =>
      refine ⟨[(.opens .group, u ++ '}' :: '{' :: t), (.closes .group, '{' :: t)], ?_, by simp [nest],
        by simp⟩
      rw [linkStart, List.append_assoc,
        marks_control (by decide) (by decide) (by decide) (by decide) rfl]
      simp [hard.marks]

theorem Reads.marks (reads : Reads g p q) :
    ∃ ms, Tex.marks p.rest = ms ++ Tex.marks q.rest ∧
      nest p.frames (ms.map Prod.fst) = some q.frames ∧
      ∀ m ∈ ms, m.1 ≠ .opens (.environment "document") := by
  induction reads with
  | refl => exact ⟨[], rfl, rfl, by simp⟩
  | tail _ step ih =>
      obtain ⟨ms, cut, nested, inner⟩ := ih
      obtain ⟨more, cutMore, nestedMore, innerMore⟩ := step.marks
      refine ⟨ms ++ more, by rw [cut, cutMore, List.append_assoc], ?_, ?_⟩
      · rw [List.map_append, nest_append, nested]
        exact nestedMore
      · exact List.forall_mem_append.mpr ⟨inner, innerMore⟩

/-! ## Escaping -/

theorem Escaped.opening {n : String} {t : Tex} (name : (braced n.toList).all isInert = true)
    (ht : Escaped t) : Escaped (Tex.opening n ++ t) := by
  rw [Tex.opening, command, List.append_assoc]
  exact (ht.append name).control (by decide) (by decide) (by decide) rfl

theorem Escaped.closing {n : String} {t : Tex} (name : (braced n.toList).all isInert = true)
    (ht : Escaped t) : Escaped (Tex.closing n ++ t) := by
  rw [Tex.closing, command, List.append_assoc]
  exact (ht.append name).control (by decide) (by decide) (by decide) rfl

theorem Step.escaped (step : Step g p q) (h : Escaped q.rest) : Escaped p.rest := by
  have name : ∀ n ∈ "multicols" :: blockNames, (braced n.toList).all isInert = true := by decide
  cases step with
  | plain self => exact h.cons (isInert_iff.mpr ⟨(isPlain_iff.mp self).1, (isPlain_iff.mp self).2.2.2⟩)
  | @symbol fs c t mem =>
      have letter := isAlpha_of_mem_characterSymbols mem
      refine h.symbol ?_ ?_
      · rintro rfl
        exact absurd mem (by decide)
      · rintro rfl
        cases letter
  | spacedBreak => exact h.lineBreak (by decide)
  | lineBreak => exact (h.cons rfl).lineBreak (by decide)
  | word mem stop =>
      obtain ⟨ne, letters, other⟩ := Dialect.command mem
      exact h.control ne letters (other _ (by decide)) stop
  | item stop => exact h.control (by decide) (by decide) (by decide) stop
  | openGroup => exact h.cons rfl
  | closeGroup => exact h.cons rfl
  | @openBlock fs n t mem => exact h.opening (name n (List.mem_cons_of_mem _ mem))
  | @openColumns fs n t digits guard =>
      have inert : n.all isInert = true := List.all_eq_true.mpr fun c mem =>
        isInert_of_isAlphanum (by simp [Char.isAlphanum, List.all_eq_true.mp digits c mem])
      have number : (braced n).all isInert = true := by
        rw [braced, List.all_cons, List.all_append, inert]
        rfl
      exact (h.append number).opening (name "multicols" (by decide))
  | @close fs n t mem => exact h.closing (name n mem)
  | target hard => exact (h.cons (c := '}') rfl).link hard

theorem Reads.escaped (reads : Reads g p q) (h : Escaped q.rest) : Escaped p.rest := by
  induction reads using Relation.ReflTransGen.head_induction_on with
  | refl => exact h
  | head step _ ih => exact step.escaped ih

end Vitae.Tex
