import Vitae.Proofs.Tex.Lexer

namespace Vitae.Tex

inductive Frame where
  | group
  | environment (name : String)
  deriving DecidableEq, Repr

inductive Mark where
  | opens (f : Frame)
  | closes (f : Frame)
  deriving DecidableEq, Repr

def upToBrace? (t : Tex) : Option (Tex × Tex) :=
  match t.dropWhile (· != '}') with
  | [] => none
  | _ :: rest => some (t.takeWhile (· != '}'), rest)

def environmentMark? (t : Tex) : Option (Mark × Tex) :=
  match Text.stripPrefix? ("begin".toList ++ ['{']) t with
  | some r => (upToBrace? r).map fun p => (.opens (.environment (String.ofList p.1)), p.2)
  | none =>
    ((Text.stripPrefix? ("end".toList ++ ['{']) t).bind upToBrace?).map fun p =>
      (.closes (.environment (String.ofList p.1)), p.2)

theorem upToBrace?_length {t : Tex} {p : Tex × Tex} (h : upToBrace? t = some p) :
    p.2.length < t.length := by
  unfold upToBrace? at h
  split at h
  · cases h
  · rename_i rest cut
    cases h
    have := (List.dropWhile_sublist (· != '}') (l := t)).length_le
    simp only [cut, List.length_cons] at this
    exact this

theorem environmentMark?_length {t : Tex} {p : Mark × Tex} (h : environmentMark? t = some p) :
    p.2.length < t.length := by
  unfold environmentMark? at h
  split at h
  · rename_i r start
    obtain ⟨q, hq, rfl⟩ := Option.map_eq_some_iff.mp h
    have := upToBrace?_length hq
    simp [Text.stripPrefix?_eq_some.mp start]
    omega
  · obtain ⟨q, hq, rfl⟩ := Option.map_eq_some_iff.mp h
    obtain ⟨r, start, hr⟩ := Option.bind_eq_some_iff.mp hq
    have := upToBrace?_length hr
    simp [Text.stripPrefix?_eq_some.mp start]
    omega

/-- What a source opens and closes, from left to right, each with the text behind it. -/
def marks : Tex → List (Mark × Tex)
  | [] => []
  | '\\' :: t =>
    match h : environmentMark? t with
    | some p =>
      have := environmentMark?_length h
      p :: marks p.2
    | none => marks t.tail
  | '{' :: t => (.opens .group, t) :: marks t
  | '}' :: t => (.closes .group, t) :: marks t
  | _ :: t => marks t
  termination_by t => t.length
  decreasing_by all_goals simp only [List.length_cons, List.length_tail]; omega

/-- What is open behind the marks when `fs` is open in front of them, the innermost first, unless a mark
closes something else than what is open. -/
def nest : List Frame → List Mark → Option (List Frame)
  | fs, [] => some fs
  | fs, .opens f :: ms => nest (f :: fs) ms
  | [], .closes _ :: _ => none
  | f :: fs, .closes g :: ms => if f = g then nest fs ms else none

/-! ## The equations of the scan -/

theorem nest_append (fs : List Frame) (ms ns : List Mark) :
    nest fs (ms ++ ns) = (nest fs ms).bind (nest · ns) := by
  fun_induction nest fs ms with
  | case1 fs => rfl
  | case2 fs f ms ih => exact ih
  | case3 => rfl
  | case4 f fs ms ih => simpa [nest] using ih
  | case5 f fs g ms ne => simp [nest, ne]

@[simp] theorem marks_nil : marks [] = [] := by
  rw [marks]

@[simp] theorem marks_open (t : Tex) : marks ('{' :: t) = (.opens .group, t) :: marks t := by
  rw [marks]

@[simp] theorem marks_close (t : Tex) : marks ('}' :: t) = (.closes .group, t) :: marks t := by
  rw [marks]

def isOrdinary (c : Char) : Bool :=
  c != '\\' && c != '{' && c != '}'

theorem marks_ordinary {c : Char} (h : isOrdinary c = true) (t : Tex) : marks (c :: t) = marks t := by
  rw [marks] <;> rintro rfl <;> simp [isOrdinary] at h

theorem marks_append_of_ordinary {s : Tex} (h : s.all isOrdinary = true) (t : Tex) :
    marks (s ++ t) = marks t := by
  induction s with
  | nil => rfl
  | cons c s ih =>
      simp only [List.all_cons, Bool.and_eq_true] at h
      rw [List.cons_append, marks_ordinary h.1, ih h.2]

theorem marks_backslash {t : Tex} (h : environmentMark? t = none) :
    marks ('\\' :: t) = marks t.tail := by
  rw [marks]
  split <;> simp_all

theorem marks_environment {t : Tex} {p : Mark × Tex} (h : environmentMark? t = some p) :
    marks ('\\' :: t) = p :: marks p.2 := by
  rw [marks]
  split <;> simp_all

theorem environmentMark?_eq_none {t : Tex}
    (opens : Text.stripPrefix? ("begin".toList ++ ['{']) t = none)
    (closes : Text.stripPrefix? ("end".toList ++ ['{']) t = none) : environmentMark? t = none := by
  rw [environmentMark?, opens, closes]
  rfl

theorem marks_symbol {c : Char} (h : c.isAlpha = false) (t : Tex) : marks ('\\' :: c :: t) = marks t := by
  have other : ∀ p : Char, p.isAlpha = true → c ≠ p := by
    rintro p letter rfl
    simp [h] at letter
  refine marks_backslash (environmentMark?_eq_none ?_ ?_)
  · simp [Text.stripPrefix?, other 'b' rfl]
  · simp [Text.stripPrefix?, other 'e' rfl]

theorem isOrdinary_of_class {p : Char → Bool} (h : p '\\' = false ∧ p '{' = false ∧ p '}' = false)
    {c : Char} (mem : p c = true) : isOrdinary c = true := by
  simp only [isOrdinary, Bool.and_eq_true, bne_iff_ne]
  refine ⟨⟨?_, ?_⟩, ?_⟩
  all_goals
    rintro rfl
    simp [h] at mem

theorem marks_control {w : String} (ne : w ≠ "") (letters : w.toList.all Char.isAlpha = true)
    (opens : w ≠ "begin") (closes : w ≠ "end") {t : Tex} (stop : startsLetter t = false) :
    marks (control w ++ t) = marks t := by
  have none := environmentMark?_eq_none (stripPrefix?_control (by decide) letters opens stop)
    (stripPrefix?_control (by decide) letters closes stop)
  rw [control, List.cons_append, marks_backslash none]
  cases cut : w.toList with
  | nil => exact absurd (String.toList_eq_nil_iff.mp cut) ne
  | cons c w' =>
      rw [cut, List.all_cons, Bool.and_eq_true] at letters
      exact marks_append_of_ordinary
        (List.all_eq_true.mpr fun d hd =>
          isOrdinary_of_class ⟨rfl, rfl, rfl⟩ (List.all_eq_true.mp letters.2 d hd)) t

theorem upToBrace?_append {n : Tex} (h : '}' ∉ n) (t : Tex) :
    upToBrace? (n ++ '}' :: t) = some (n, t) := by
  rw [upToBrace?, dropWhile_brace h, takeWhile_brace h]

theorem marks_opening {n : String} (h : '}' ∉ n.toList) (t : Tex) :
    marks (opening n ++ t) = (.opens (.environment n), t) :: marks t := by
  have mark : environmentMark? ("begin".toList ++ ['{'] ++ (n.toList ++ '}' :: t)) =
      some (.opens (.environment n), t) := by
    rw [environmentMark?, Text.stripPrefix?_eq_some.mpr rfl]
    simp [upToBrace?_append h]
  simpa [opening, command, control, braced] using marks_environment mark

theorem marks_closing {n : String} (h : '}' ∉ n.toList) (t : Tex) :
    marks (closing n ++ t) = (.closes (.environment n), t) :: marks t := by
  have mark : environmentMark? ("end".toList ++ ['{'] ++ (n.toList ++ '}' :: t)) =
      some (.closes (.environment n), t) := by
    have opens : Text.stripPrefix? ("begin".toList ++ ['{'])
        ("end".toList ++ ['{'] ++ (n.toList ++ '}' :: t)) = none := rfl
    rw [environmentMark?, opens, Text.stripPrefix?_eq_some.mpr rfl]
    simp [upToBrace?_append h]
  simpa [closing, command, control, braced] using marks_environment mark

end Vitae.Tex
