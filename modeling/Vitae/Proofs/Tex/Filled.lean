import Vitae.Proofs.Reading.Step
import Vitae.Proofs.Tex.Decoding
import Vitae.Proofs.Text.Solid
import Mathlib.Data.List.Infix

namespace Vitae.Tex

open Text

variable {s t : Tex}

/-- A closing brace behind the text closes something: no blank is in front of it, and where an opening
brace is, that one is escaped or belongs to an escaped form. -/
def Closes (s : Tex) : Prop :=
  ∃ c ∈ s.getLast?, c ≠ ' ' ∧ (c = '{' → ∃ w ∈ "" :: escapeWords, control w <:+ s.dropLast)

-- The instance is named, since one that goes through all characters may be found in its place.
instance : DecidablePred Closes :=
  fun s => Option.decidableExistsMem s.getLast?

def Filled (s : Tex) : Prop :=
  ∀ a, a ++ ['}'] <+: s → Closes a

/-- `Filled` by one walk, with what stands in front of the text given from right to left. -/
def isFilled (before : Tex) : Tex → Bool
  | [] => true
  | c :: t => (c != '}' || decide (Closes before.reverse)) && isFilled (c :: before) t

theorem isFilled_iff {before : Tex} :
    isFilled before s = true ↔ ∀ a, a ++ ['}'] <+: s → Closes (before.reverse ++ a) := by
  induction s generalizing before with
  | nil => simp [isFilled]
  | cons c s ih =>
    rw [isFilled, Bool.and_eq_true, ih]
    constructor
    · rintro ⟨first, rest⟩ a start
      cases a with
      | nil =>
        obtain rfl : '}' = c := by simpa using start
        simpa using first
      | cons d a =>
        obtain ⟨rfl, later⟩ := List.cons_prefix_cons.mp start
        simpa using rest a later
    · intro h
      refine ⟨?_, fun a start => ?_⟩
      · by_cases brace : c = '}'
        · simpa [brace] using h [] (by simp [brace])
        · simp [brace]
      · simpa using h (c :: a) (by simpa using start)

instance : DecidablePred Filled := fun s =>
  decidable_of_iff (isFilled [] s = true) isFilled_iff

/-! ## Texts put together -/

theorem closes_concat {c : Char} : Closes (s ++ [c]) ↔
    c ≠ ' ' ∧ (c = '{' → ∃ w ∈ "" :: escapeWords, control w <:+ s) := by
  simp [Closes]

theorem closes_of_last {c : Char} (blank : c ≠ ' ') (brace : c ≠ '{') : Closes (s ++ [c]) :=
  closes_concat.mpr ⟨blank, fun same => absurd same brace⟩

theorem closes_braced (s : Tex) : Closes (braced s) :=
  closes_of_last (s := '{' :: s) (by decide) (by decide)

theorem Closes.behind (h : Closes s) (front : Tex) : Closes (front ++ s) := by
  cases s using List.reverseRecOn with
  | nil => simp [Closes] at h
  | append_singleton s c =>
    rw [← List.append_assoc]
    rw [closes_concat] at h ⊢
    refine h.imp_right fun form brace => ?_
    obtain ⟨w, mem, suffix⟩ := form brace
    exact ⟨w, mem, suffix.trans (List.suffix_append front s)⟩

theorem closes_environment (n : String) (start body : Tex) : Closes (environment n start body) :=
  ((closes_braced n.toList).behind (control "end")).behind _

theorem Filled.append (hs : Filled s) (ht : Filled t) : Filled (s ++ t) := by
  intro a start
  -- what ends with the brace is within the first text or goes on into the second one
  rcases List.prefix_or_prefix_of_prefix start (List.prefix_append s t) with front | longer
  · exact hs a front
  · rcases List.prefix_concat_iff.mp longer with rfl | ⟨a, rfl⟩
    · exact hs a (List.prefix_refl _)
    · rw [List.append_assoc, List.prefix_append_right_inj] at start
      exact (ht a start).behind s

theorem Filled.group (ho : Filled s) (ht : Filled t) (closes : Closes t) : Filled (s ++ t ++ ['}']) := by
  intro a start
  rcases List.prefix_concat_iff.mp start with whole | front
  · rw [List.append_cancel_right whole]
    exact closes.behind s
  · exact ho.append ht a front

theorem filled_of_not_mem (h : '}' ∉ s) : Filled s :=
  fun a start => absurd (start.subset (by simp)) h

/-! ## Escaped text and targets -/

theorem filled_form : ∀ f ∈ escapedForms, Filled f.2 := by
  decide

theorem filled_escapeChar (c : Char) : Filled (escapeChar c) := by
  refine escapeChar_cases filled_form fun plain => filled_of_not_mem fun mem => ?_
  rw [← List.mem_singleton.mp mem] at plain
  exact plain (by decide)

theorem filled_escape (s : List Char) : Filled (escape s) := by
  induction s with
  | nil => exact fun a start => absurd (List.prefix_nil.mp start) (by simp)
  | cons c s ih =>
    rw [escape, List.flatMap_cons]
    exact (filled_escapeChar c).append ih

theorem closes_form : ∀ f ∈ escapedForms, Closes f.2 := by
  decide

theorem closes_escapeChar {c : Char} (visible : isBlank c = false) : Closes (escapeChar c) := by
  refine escapeChar_cases closes_form fun plain => ?_
  have noBrace : c ≠ '{' := by
    rintro rfl
    exact plain (by decide)
  have noBlank : c ≠ ' ' := by
    rintro rfl
    cases visible
  exact closes_of_last (s := []) noBlank noBrace

theorem closes_escape {s : List Char} (solid : Solid s) (ne : s ≠ []) : Closes (escape s) := by
  cases s using List.reverseRecOn with
  | nil => exact absurd rfl ne
  | append_singleton s c =>
    rw [escape_append, escape_singleton]
    exact (closes_escapeChar (solid.last c (by simp))).behind _

theorem Target.Hardened.closes {u : Tex} (h : Target.Hardened u) (ne : u ≠ []) : Closes u := by
  cases u using List.reverseRecOn with
  | nil => exact absurd rfl ne
  | append_singleton u c =>
    refine closes_of_last ?_ ?_
    · rintro rfl
      have visible := (h.visible ' ' (by simp)).1
      cases visible
    · rintro rfl
      have safe := h.safe '{' (by simp)
      simp [Target.unsafeChars] at safe

theorem filled_href {u : Tex} {s : List Char} (hard : Target.Hardened u) (neU : u ≠ []) (solid : Solid s)
    (neS : s ≠ []) : Filled (Target.href u (escape s)) := by
  have opens : Filled (control "href" ++ ['{']) := by decide
  have brace : Filled ['{'] := by decide
  have target := opens.group (filled_of_not_mem hard.no_brace) (hard.closes neU)
  have both := (target.append brace).group (filled_escape s) (closes_escape solid neS)
  simpa [Target.href, braced] using both

/-! ## What a filled text has not -/

theorem letters_reverse {w : Tex} (h : w.all Char.isAlpha = true) : w.reverse.all Char.isAlpha = true := by
  rwa [List.all_reverse]

theorem eq_of_control_suffix {v w : String} (hv : v.toList.all Char.isAlpha = true)
    (hw : w.toList.all Char.isAlpha = true) {a : Tex} (suffix : control v <:+ a ++ control w) : v = w := by
  obtain ⟨b, same⟩ := suffix
  -- From the right, the letters up to the backslash are the word.
  have reversed : v.toList.reverse ++ '\\' :: b.reverse = w.toList.reverse ++ '\\' :: a.reverse := by
    simpa [control] using congrArg List.reverse same
  have words := congrArg (List.takeWhile Char.isAlpha) reversed
  rw [takeWhile_isAlpha_append (letters_reverse hv) rfl, takeWhile_isAlpha_append (letters_reverse hw) rfl,
    List.reverse_inj] at words
  exact String.toList_inj.mp words

theorem letters_escapeWords : ∀ w ∈ "" :: escapeWords, w.toList.all Char.isAlpha = true := by
  decide

theorem Filled.emptyGroup {a b : Tex} (h : Filled (a ++ braced [] ++ b)) :
    ∃ w ∈ "" :: escapeWords, control w <:+ a := by
  have closes : Closes (a ++ ['{']) := h _ ⟨b, by simp [braced]⟩
  exact (closes_concat.mp closes).2 rfl

theorem Filled.not_command (h : Filled s) {w : String} (letters : w.toList.all Char.isAlpha = true)
    (ne : w ≠ "") (noForm : w ∉ escapeWords) : ¬command w [] <:+: s := by
  rintro ⟨a, b, rfl⟩
  have whole : Filled (a ++ control w ++ braced [] ++ b) := by simpa [command] using h
  obtain ⟨v, mem, suffix⟩ := whole.emptyGroup
  rw [eq_of_control_suffix (letters_escapeWords v mem) letters suffix] at mem
  exact (List.mem_cons.mp mem).elim ne noForm

theorem Filled.not_group (h : Filled s) (declarations : Tex) : ¬braced (declarations ++ " ") <:+: s := by
  rintro ⟨a, b, rfl⟩
  have closes : Closes (a ++ '{' :: declarations ++ [' ']) := h _ ⟨b, by simp [braced]⟩
  exact (closes_concat.mp closes).1 rfl

end Vitae.Tex
