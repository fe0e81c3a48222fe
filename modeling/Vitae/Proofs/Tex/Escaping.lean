import Vitae.Proofs.Tex.Lexer
import Vitae.Tex.Target

/-!
# Escaped characters and link targets

A source has two encodings in it: running text, where ten characters are only met behind a backslash, and
the targets of links. `cutTargets` takes the two apart, `exposed` lists what is met in running text with no
backslash in front of it, and `Target.Hardened` says what a target looks like.
-/

namespace Vitae.Tex

/-- The characters that TeX does not take as they stand in running text, braces and backslash apart. -/
def activeChars : List Char :=
  ['&', '%', '#', '$', '_', '~', '^']

def isInert (c : Char) : Bool :=
  !('\\' :: activeChars).contains c

def linkStart : Tex :=
  control "href" ++ ['{']

/-- The source without the targets of its links, and the targets. A target is what stands between `\href`
with its brace and the next closing brace. -/
def cutTargets : Tex → Tex × List Tex
  | [] => ([], [])
  | c :: t =>
    match _h : Text.stripPrefix? linkStart (c :: t) with
    | some r =>
      let rest := cutTargets (r.dropWhile (· != '}'))
      (linkStart ++ rest.1, r.takeWhile (· != '}') :: rest.2)
    | none =>
      let rest := cutTargets t
      (c :: rest.1, rest.2)
  termination_by t => t.length
  decreasing_by
    · have whole := congrArg List.length (Text.stripPrefix?_eq_some.mp _h)
      have := (List.dropWhile_sublist (· != '}') (l := r)).length_le
      simp only [linkStart, List.length_append, List.length_cons] at whole ⊢
      omega
    · simp only [List.length_cons]
      omega

/-- The characters met by a scan that skips each backslash together with the character behind it. -/
def exposed : Tex → List Char
  | [] => []
  | ['\\'] => []
  | '\\' :: _ :: t => exposed t
  | c :: t => c :: exposed t

namespace Target

/-- What a target is made of: percent signs and hashes with a backslash each, and other characters that
neither close the argument nor start a command nor break the line. -/
inductive Hardened : Tex → Prop where
  | nil : Hardened []
  | escaped {c : Char} {t : Tex} (mark : c = '%' ∨ c = '#') (rest : Hardened t) :
      Hardened ('\\' :: c :: t)
  | plain {c : Char} {t : Tex} (mark : c ≠ '%' ∧ c ≠ '#') (safe : c ∉ unsafeChars)
      (visible : Text.isBlank c = false ∧ Text.isControl c = false) (rest : Hardened t) :
      Hardened (c :: t)

theorem Hardened.append {s t : Tex} (hs : Hardened s) (ht : Hardened t) : Hardened (s ++ t) := by
  induction hs with
  | nil => exact ht
  | escaped mark _ ih => exact .escaped mark ih
  | plain mark safe visible _ ih => exact .plain mark safe visible ih

theorem Hardened.no_brace {t : Tex} (h : Hardened t) : '}' ∉ t := by
  induction h with
  | nil => simp
  | escaped mark _ ih => rcases mark with rfl | rfl <;> simpa using ih
  | @plain c t _ safe _ _ ih =>
      simp only [List.mem_cons, not_or]
      exact ⟨by rintro rfl; exact safe (by decide), ih⟩

theorem Hardened.visible {t : Tex} (h : Hardened t) :
    ∀ c ∈ t, Text.isBlank c = false ∧ Text.isControl c = false := by
  induction h with
  | nil => simp
  | escaped mark _ ih =>
      rw [List.forall_mem_cons, List.forall_mem_cons]
      exact ⟨by decide, by rcases mark with rfl | rfl <;> decide, ih⟩
  | plain _ _ visible _ ih => exact List.forall_mem_cons.mpr ⟨visible, ih⟩

theorem Hardened.safe {t : Tex} (h : Hardened t) : ∀ c ∈ t, c = '\\' ∨ c ∉ unsafeChars := by
  induction h with
  | nil => simp
  | escaped mark _ ih =>
      rw [List.forall_mem_cons, List.forall_mem_cons]
      exact ⟨.inl rfl, .inr (by rcases mark with rfl | rfl <;> decide), ih⟩
  | plain _ safe _ _ ih => exact List.forall_mem_cons.mpr ⟨.inr safe, ih⟩

theorem Hardened.behind_backslash {t : Tex} (h : Hardened t) {a b : Tex} (cut : t = a ++ '\\' :: b) :
    ∃ c r, b = c :: r ∧ (c = '%' ∨ c = '#') := by
  induction h generalizing a with
  | nil => simp at cut
  | @escaped c t mark _ ih =>
      -- The cut is in front of the pair, within it or behind it.
      rcases a with _ | ⟨d, _ | ⟨e, a⟩⟩
      · simp only [List.nil_append, List.cons.injEq, true_and] at cut
        exact ⟨c, t, cut.symm, mark⟩
      · simp only [List.cons_append, List.nil_append, List.cons.injEq] at cut
        rcases mark with rfl | rfl <;> simp at cut
      · simp only [List.cons_append, List.cons.injEq] at cut
        exact ih cut.2.2
  | @plain c t _ safe _ _ ih =>
      rcases a with _ | ⟨d, a⟩
      · simp only [List.nil_append, List.cons.injEq] at cut
        rw [cut.1] at safe
        exact absurd (by decide) safe
      · simp only [List.cons_append, List.cons.injEq] at cut
        exact ih cut.2

theorem Hardened.before_mark {t : Tex} (h : Hardened t) {a b : Tex} {m : Char} (cut : t = a ++ m :: b)
    (sign : m = '%' ∨ m = '#') : ∃ r, a = r ++ ['\\'] := by
  induction h generalizing a with
  | nil => simp at cut
  | @escaped c t mark _ ih =>
      rcases a with _ | ⟨d, _ | ⟨e, a⟩⟩
      · simp only [List.nil_append, List.cons.injEq] at cut
        rcases sign with rfl | rfl <;> simp at cut
      · simp only [List.cons_append, List.cons.injEq] at cut
        exact ⟨[], by rw [cut.1]; rfl⟩
      · simp only [List.cons_append, List.cons.injEq] at cut
        obtain ⟨r, rfl⟩ := ih cut.2.2
        exact ⟨d :: e :: r, rfl⟩
  | @plain c t mark _ _ _ ih =>
      rcases a with _ | ⟨d, a⟩
      · simp only [List.nil_append, List.cons.injEq] at cut
        rw [cut.1] at mark
        rcases sign with rfl | rfl <;> simp at mark
      · simp only [List.cons_append, List.cons.injEq] at cut
        obtain ⟨r, rfl⟩ := ih cut.2
        exact ⟨d :: r, rfl⟩

end Target

/-! ## The equations of the cut -/

@[simp] theorem cutTargets_nil : cutTargets [] = ([], []) := by
  rw [cutTargets]

theorem cutTargets_cons {c : Char} {t : Tex} (h : Text.stripPrefix? linkStart (c :: t) = none) :
    cutTargets (c :: t) = (c :: (cutTargets t).1, (cutTargets t).2) := by
  rw [cutTargets]
  split
  · rename_i r start
    rw [h] at start
    cases start
  · rfl

theorem cutTargets_char {c : Char} (h : c ≠ '\\') (t : Tex) :
    cutTargets (c :: t) = (c :: (cutTargets t).1, (cutTargets t).2) :=
  cutTargets_cons (by simp [linkStart, control, Text.stripPrefix?, h])

theorem cutTargets_append_of_no_backslash {s : Tex} (h : '\\' ∉ s) (t : Tex) :
    cutTargets (s ++ t) = (s ++ (cutTargets t).1, (cutTargets t).2) := by
  induction s with
  | nil => rfl
  | cons c s ih =>
      simp only [List.mem_cons, not_or] at h
      rw [List.cons_append, cutTargets_char (Ne.symm h.1), ih h.2, List.cons_append]

theorem cutTargets_link {u : Tex} (h : '}' ∉ u) (t : Tex) :
    cutTargets (linkStart ++ (u ++ '}' :: t)) =
      (linkStart ++ (cutTargets ('}' :: t)).1, u :: (cutTargets ('}' :: t)).2) := by
  have start := Text.stripPrefix?_eq_some.mpr (rfl : linkStart ++ (u ++ '}' :: t) = linkStart ++ _)
  change Text.stripPrefix? linkStart ('\\' :: _) = _ at start
  change cutTargets ('\\' :: _) = _
  rw [cutTargets]
  split
  · rename_i r hr
    rw [start] at hr
    cases hr
    simp only [takeWhile_brace h, dropWhile_brace h]
  · rename_i hr
    rw [start] at hr
    cases hr

theorem exposed_char {c : Char} (h : c ≠ '\\') (t : Tex) : exposed (c :: t) = c :: exposed t := by
  cases t <;> simp [exposed, h]

theorem exposed_append_of_no_backslash {s : Tex} (h : '\\' ∉ s) (t : Tex) :
    exposed (s ++ t) = s ++ exposed t := by
  induction s with
  | nil => rfl
  | cons c s ih =>
      simp only [List.mem_cons, not_or] at h
      rw [List.cons_append, exposed_char (Ne.symm h.1), ih h.2, List.cons_append]

/-! ## Sources in which everything is escaped -/

def Escaped (t : Tex) : Prop :=
  (∀ c ∈ exposed (cutTargets t).1, c ∉ activeChars) ∧ ∀ u ∈ (cutTargets t).2, Target.Hardened u

theorem isInert_iff {c : Char} : isInert c = true ↔ c ≠ '\\' ∧ c ∉ activeChars := by
  simp [isInert]

theorem not_mem_of_isInert {s : Tex} (h : s.all isInert = true) : '\\' ∉ s :=
  fun mem => (isInert_iff.mp (List.all_eq_true.mp h _ mem)).1 rfl

theorem isInert_of_isAlphanum {c : Char} (h : c.isAlphanum = true) : isInert c = true := by
  refine isInert_iff.mpr ⟨?_, fun mem => ?_⟩
  · rintro rfl
    cases h
  · simp only [activeChars, List.mem_cons, List.not_mem_nil, or_false] at mem
    rcases mem with rfl | rfl | rfl | rfl | rfl | rfl | rfl <;> cases h

theorem Escaped.append {s t : Tex} (h : s.all isInert = true) (ht : Escaped t) : Escaped (s ++ t) := by
  have plain := not_mem_of_isInert h
  rw [Escaped, cutTargets_append_of_no_backslash plain, exposed_append_of_no_backslash plain,
    List.forall_mem_append]
  exact ⟨⟨fun c mem => (isInert_iff.mp (List.all_eq_true.mp h c mem)).2, ht.1⟩, ht.2⟩

theorem Escaped.cons {c : Char} {t : Tex} (h : isInert c = true) (ht : Escaped t) : Escaped (c :: t) :=
  ht.append (s := [c]) (by simpa using h)

theorem Escaped.symbol {c : Char} {t : Tex} (ne : c ≠ '\\') (letter : c ≠ 'h') (ht : Escaped t) :
    Escaped ('\\' :: c :: t) := by
  have start : Text.stripPrefix? linkStart ('\\' :: c :: t) = none := by
    simp [linkStart, control, Text.stripPrefix?, letter]
  rw [Escaped, cutTargets_cons start, cutTargets_char ne]
  exact ht

theorem Escaped.lineBreak {c : Char} {t : Tex} (letter : c ≠ 'h') (ht : Escaped (c :: t)) :
    Escaped ('\\' :: '\\' :: c :: t) := by
  have first : Text.stripPrefix? linkStart ('\\' :: '\\' :: c :: t) = none := rfl
  have second : Text.stripPrefix? linkStart ('\\' :: c :: t) = none := by
    simp [linkStart, control, Text.stripPrefix?, letter]
  rw [Escaped, cutTargets_cons first, cutTargets_cons second]
  exact ht

theorem Escaped.control {w : String} (ne : w ≠ "") (letters : w.toList.all Char.isAlpha = true)
    (link : w ≠ "href") {t : Tex} (stop : startsLetter t = false) (ht : Escaped t) :
    Escaped (Tex.control w ++ t) := by
  have start : Text.stripPrefix? linkStart (Tex.control w ++ t) = none :=
    stripPrefix?_control (by decide) letters link stop
  cases cut : w.toList with
  | nil => exact absurd (String.toList_eq_nil_iff.mp cut) ne
  | cons c w' =>
      rw [cut] at letters
      have inert : (c :: w').all isInert = true := List.all_eq_true.mpr fun d mem =>
        isInert_of_isAlphanum (by simp [Char.isAlphanum, List.all_eq_true.mp letters d mem])
      have inertTail : w'.all isInert = true := by
        rw [List.all_cons, Bool.and_eq_true] at inert
        exact inert.2
      -- The scan skips the first letter with the backslash, so it meets only `w'` in front of `t`.
      have rest := ht.append inertTail
      rw [Tex.control, cut, List.cons_append] at start ⊢
      rw [Escaped, cutTargets_cons start, cutTargets_append_of_no_backslash (not_mem_of_isInert inert)]
      rw [Escaped, cutTargets_append_of_no_backslash (not_mem_of_isInert inertTail)] at rest
      exact rest

theorem Escaped.link {u t : Tex} (hard : Target.Hardened u) (ht : Escaped ('}' :: t)) :
    Escaped (linkStart ++ (u ++ '}' :: t)) := by
  rw [Escaped, cutTargets_link hard.no_brace]
  refine ⟨?_, List.forall_mem_cons.mpr ⟨hard, ht.2⟩⟩
  -- Behind the backslash and the letter that it hides stand the rest of the name and the brace.
  have scan : exposed (linkStart ++ (cutTargets ('}' :: t)).1) =
      'r' :: 'e' :: 'f' :: '{' :: exposed (cutTargets ('}' :: t)).1 :=
    exposed_append_of_no_backslash (s := ['r', 'e', 'f', '{']) (by decide) _
  rw [scan]
  simpa [activeChars] using ht.1

end Vitae.Tex
