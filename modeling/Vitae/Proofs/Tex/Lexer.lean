import Vitae.Tex.Escape
import Vitae.Text.Search

namespace Vitae.Tex

inductive Token where
  /-- A backslash with the letters behind it, as many as there are. -/
  | word (name : String)
  /-- A backslash with one character that is no letter. -/
  | symbol (c : Char)
  | dangling
  | char (c : Char)
  deriving DecidableEq, Repr

/-- The tokens of a text from left to right, each with the text behind it. -/
def lex : Tex → List (Token × Tex)
  | [] => []
  | ['\\'] => [(.dangling, [])]
  | '\\' :: c :: t =>
    if c.isAlpha then
      (.word (String.ofList (c :: t.takeWhile Char.isAlpha)), t.dropWhile Char.isAlpha)
        :: lex (t.dropWhile Char.isAlpha)
    else (.symbol c, t) :: lex t
  | c :: t => (.char c, t) :: lex t
  termination_by t => t.length
  decreasing_by
    · have := (List.dropWhile_sublist Char.isAlpha (l := t)).length_le
      simp only [List.length_cons]
      omega
    · simp only [List.length_cons]
      omega
    · simp

def startsLetter (t : Tex) : Bool :=
  t.head?.any Char.isAlpha

def startsBlank (t : Tex) : Bool :=
  t.head?.any Text.isBlank

/-- The text goes on with an optional argument or a star, perhaps after blanks. -/
def ReadsOption (t : Tex) : Prop :=
  ∃ blanks c rest, t = blanks ++ c :: rest ∧ Text.allBlank blanks ∧ (c = '[' ∨ c = '*')

/-- The places behind a token where TeX looks for an optional argument or a star, other than right behind
a line break. -/
inductive LooksAhead : Token → Tex → Tex → Prop where
  | lineBreak {t : Tex} (blank : startsBlank t = true) : LooksAhead (.symbol '\\') t t
  | item {w : String} {t : Tex} (name : w = "item") : LooksAhead (.word w) t t
  | columns {w : String} {s n t : Tex} (name : w = "begin") (inside : '}' ∉ n)
      (cut : s = braced "multicols" ++ (braced n ++ t)) : LooksAhead (.word w) s t

/-! ## The equations of the lexer -/

@[simp] theorem lex_nil : lex [] = [] := by
  rw [lex]

theorem lex_char {c : Char} (h : c ≠ '\\') (t : Tex) : lex (c :: t) = (.char c, t) :: lex t := by
  rw [lex]
  · rintro rfl
    exact absurd rfl h
  · rintro d r rfl
    exact absurd rfl h

theorem lex_symbol {c : Char} (h : c.isAlpha = false) (t : Tex) :
    lex ('\\' :: c :: t) = (.symbol c, t) :: lex t := by
  rw [lex, if_neg (by simp [h])]

theorem takeWhile_isAlpha_append {w t : Tex} (letters : w.all Char.isAlpha = true)
    (stop : startsLetter t = false) : (w ++ t).takeWhile Char.isAlpha = w := by
  rw [List.takeWhile_append_of_pos (List.all_eq_true.mp letters)]
  cases t with
  | nil => simp
  | cons c t => simp_all [startsLetter]

theorem dropWhile_isAlpha_append {w t : Tex} (letters : w.all Char.isAlpha = true)
    (stop : startsLetter t = false) : (w ++ t).dropWhile Char.isAlpha = t := by
  rw [List.dropWhile_append_of_pos (List.all_eq_true.mp letters)]
  cases t with
  | nil => simp
  | cons c t => simp_all [startsLetter]

theorem lex_control {name : String} (ne : name ≠ "") (letters : name.toList.all Char.isAlpha = true)
    {t : Tex} (stop : startsLetter t = false) :
    lex (control name ++ t) = (.word name, t) :: lex t := by
  obtain ⟨w, rfl⟩ : ∃ w, name = String.ofList w := ⟨name.toList, by simp⟩
  cases w with
  | nil => exact absurd rfl ne
  | cons c w =>
      simp only [String.toList_ofList, List.all_cons, Bool.and_eq_true] at letters
      simp only [control, String.toList_ofList, List.cons_append]
      rw [lex, if_pos letters.1, takeWhile_isAlpha_append letters.2 stop,
        dropWhile_isAlpha_append letters.2 stop]

theorem lex_append_of_no_backslash {s : Tex} (h : '\\' ∉ s) (t : Tex) :
    ∃ front, lex (s ++ t) = front ++ lex t ∧ ∀ x ∈ front, ∃ c, x.1 = .char c := by
  induction s with
  | nil => exact ⟨[], rfl, by simp⟩
  | cons c s ih =>
      simp only [List.mem_cons, not_or] at h
      obtain ⟨front, cut, chars⟩ := ih h.2
      refine ⟨(.char c, s ++ t) :: front, ?_, ?_⟩
      · rw [List.cons_append, lex_char (Ne.symm h.1), cut, List.cons_append]
      · simpa using chars

theorem lex_environment {w : String} (ne : w ≠ "") (letters : w.toList.all Char.isAlpha = true)
    {n : Tex} (h : '\\' ∉ n) (t : Tex) :
    ∃ front, lex (control w ++ (braced n ++ t)) = (.word w, braced n ++ t) :: (front ++ lex t) ∧
      ∀ x ∈ front, ∃ c, x.1 = .char c := by
  obtain ⟨front, cut, chars⟩ := lex_append_of_no_backslash (s := braced n) (by simp [braced, h]) t
  exact ⟨front, by rw [lex_control ne letters rfl, cut], chars⟩

theorem eq_append_of_symbol_mem_lex {c : Char} {s t : Tex} (mem : (.symbol c, t) ∈ lex s) :
    ∃ before, s = before ++ '\\' :: c :: t := by
  fun_induction lex s with
  | case1 => cases mem
  | case2 => simp at mem
  | case3 d s letter ih =>
      simp only [List.mem_cons, Prod.mk.injEq, reduceCtorEq, false_and, false_or] at mem
      obtain ⟨before, eq⟩ := ih mem
      refine ⟨'\\' :: d :: (s.takeWhile Char.isAlpha ++ before), ?_⟩
      rw [List.cons_append, List.cons_append, List.append_assoc, ← eq, List.takeWhile_append_dropWhile]
  | case4 d s _ ih =>
      obtain same | later := List.mem_cons.mp mem
      · cases same
        exact ⟨[], rfl⟩
      · obtain ⟨before, rfl⟩ := ih later
        exact ⟨'\\' :: d :: before, rfl⟩
  | case5 d s _ _ ih =>
      simp only [List.mem_cons, Prod.mk.injEq, reduceCtorEq, false_and, false_or] at mem
      obtain ⟨before, rfl⟩ := ih mem
      exact ⟨d :: before, rfl⟩

theorem stripPrefix?_control {p w : String} (lettersP : p.toList.all Char.isAlpha = true)
    (lettersW : w.toList.all Char.isAlpha = true) (ne : w ≠ p) {t : Tex}
    (stop : startsLetter t = false) :
    Text.stripPrefix? (p.toList ++ ['{']) (w.toList ++ t) = none := by
  rw [Option.eq_none_iff_forall_ne_some]
  intro r start
  rw [Text.stripPrefix?_eq_some, List.append_assoc] at start
  apply ne
  rw [← String.toList_inj, ← takeWhile_isAlpha_append lettersW stop, start]
  exact takeWhile_isAlpha_append lettersP rfl

/-! ## Up to a closing brace -/

theorem takeWhile_brace {u : Tex} (h : '}' ∉ u) (t : Tex) :
    (u ++ '}' :: t).takeWhile (· != '}') = u := by
  rw [List.takeWhile_append_of_pos fun c hc => bne_iff_ne.mpr fun eq => absurd hc (by rwa [eq])]
  simp

theorem dropWhile_brace {u : Tex} (h : '}' ∉ u) (t : Tex) :
    (u ++ '}' :: t).dropWhile (· != '}') = '}' :: t := by
  rw [List.dropWhile_append_of_pos fun c hc => bne_iff_ne.mpr fun eq => absurd hc (by rwa [eq])]
  simp

theorem braced_append_inj {a b s t : Tex} (ha : '}' ∉ a) (hb : '}' ∉ b)
    (h : braced a ++ s = braced b ++ t) : a = b ∧ s = t := by
  simp only [braced, List.cons_append, List.append_assoc, List.nil_append, List.cons.injEq,
    true_and] at h
  obtain rfl : a = b := by rw [← takeWhile_brace ha s, h, takeWhile_brace hb t]
  simpa using h

/-! ## Where an optional argument may follow -/

theorem trimStart_append (s t : Tex) : Text.trimStart (s ++ t) =
    if (Text.trimStart s).isEmpty then Text.trimStart t else Text.trimStart s ++ t :=
  List.dropWhile_append

theorem startsOption_eq (t : Tex) :
    startsOption t = (Text.trimStart t).head?.any fun c => c == '[' || c == '*' := by
  unfold startsOption
  split <;> simp_all
  cases cut : Text.trimStart t with
  | nil => rfl
  | cons c rest => simp_all

theorem startsOption_iff {t : Tex} : startsOption t = true ↔ ReadsOption t := by
  constructor
  · intro h
    rw [startsOption_eq] at h
    cases cut : Text.trimStart t with
    | nil => simp [cut] at h
    | cons c rest =>
        refine ⟨t.takeWhile Text.isBlank, c, rest, ?_, List.all_takeWhile, by simpa [cut] using h⟩
        rw [← cut]
        exact List.takeWhile_append_dropWhile.symm
  · rintro ⟨blanks, c, rest, rfl, blank, rfl | rfl⟩
    all_goals
      rw [startsOption, Text.trimStart, List.dropWhile_append_of_pos (List.all_eq_true.mp blank)]
      rfl

instance : DecidablePred ReadsOption := fun _ => decidable_of_iff _ startsOption_iff

theorem guardLineStart_eq (t : Tex) :
    guardLineStart t = (if ReadsOption t then braced [] else []) ++ t := by
  unfold guardLineStart
  simp only [startsOption_iff]
  split <;> rfl

theorem startsOption_append (s t : Tex) : startsOption (s ++ t) =
    if (Text.trimStart s).isEmpty then startsOption t else startsOption s := by
  rw [startsOption_eq, startsOption_eq, startsOption_eq, trimStart_append]
  cases Text.trimStart s <;> simp

end Vitae.Tex
