import Vitae.Tex.Escape
import Vitae.Text.Search
import Mathlib.Data.List.Forall2
import Mathlib.Logic.Function.Basic

/-!
# Escaped text can be read back

The escaped forms and the characters that have none make up a code. No form is the beginning of another
one, so an escaped text falls into pieces in one way only, one piece for each character, and `unescape`
reads the characters back.
-/

namespace Vitae.Tex

open Text

/-! ## The code -/

def escapedForms : List (Char × Tex) :=
  [('\\', "\\textbackslash\x7b\x7d"), ('&', "\\&"), ('%', "\\%"), ('#', "\\#"), ('_', "\\_"), ('$', "\\$"),
    ('{', "\\\x7b"), ('}', "\\\x7d"), ('~', "\\textasciitilde\x7b\x7d"), ('^', "\\textasciicircum\x7b\x7d")]

/-- The piece of escaped text for a character: its form, or itself where it has none. -/
inductive Denotes : Tex → Char → Prop where
  | form {c : Char} {w : Tex} (mem : (c, w) ∈ escapedForms) : Denotes w c
  | self {c : Char} (plain : c ∉ escapedForms.map Prod.fst) : Denotes [c] c

def InCode (t : Tex) : Prop :=
  ∃ ps : List Tex, ps.flatten = t ∧ ∀ p ∈ ps, ∃ c, Denotes p c

theorem eq_of_same_char : ∀ f ∈ escapedForms, ∀ g ∈ escapedForms, f.1 = g.1 → f = g := by
  decide

theorem eq_of_isPrefix_form : ∀ f ∈ escapedForms, ∀ g ∈ escapedForms, f.2 <+: g.2 → f = g := by
  decide

theorem exists_backslash : ∀ f ∈ escapedForms, ∃ v, f.2 = '\\' :: v := by
  simp [escapedForms]

theorem denotes_escapeChar (c : Char) : Denotes (escapeChar c) c := by
  unfold escapeChar
  split
  case h_11 => exact .self (by simp_all [escapedForms])
  all_goals exact .form (by decide)

theorem Denotes.unique {p q : Tex} {c : Char} (hp : Denotes p c) (hq : Denotes q c) : p = q := by
  cases hp with
  | form memP =>
    cases hq with
    | form memQ => exact congrArg Prod.snd (eq_of_same_char _ memP _ memQ rfl)
    | self plain => exact absurd (List.mem_map_of_mem memP) plain
  | self plain =>
    cases hq with
    | form memQ => exact absurd (List.mem_map_of_mem memQ) plain
    | self => rfl

theorem denotes_iff {p : Tex} {c : Char} : Denotes p c ↔ p = escapeChar c := by
  constructor
  · exact fun h => h.unique (denotes_escapeChar c)
  · rintro rfl
    exact denotes_escapeChar c

theorem escapeChar_cases {P : Tex → Prop} {c : Char} (form : ∀ f ∈ escapedForms, P f.2)
    (self : c ∉ escapedForms.map Prod.fst → P [c]) : P (escapeChar c) := by
  generalize piece : escapeChar c = w
  cases denotes_iff.mpr piece.symm with
  | form mem => exact form _ mem
  | self plain => exact self plain

theorem inCode_iff {t : Tex} : InCode t ↔ ∃ s, escape s = t := by
  constructor
  · rintro ⟨ps, rfl, pieces⟩
    induction ps with
    | nil => exact ⟨[], rfl⟩
    | cons p ps ih =>
      rw [List.forall_mem_cons] at pieces
      obtain ⟨⟨c, denotes⟩, pieces⟩ := pieces
      obtain ⟨s, rest⟩ := ih pieces
      refine ⟨c :: s, ?_⟩
      rw [denotes_iff.mp denotes, List.flatten_cons, ← rest]
      rfl
  · rintro ⟨s, rfl⟩
    refine ⟨s.map escapeChar, (List.flatMap_def).symm, ?_⟩
    rw [List.forall_mem_map]
    exact fun c _ => ⟨c, denotes_escapeChar c⟩

/-! ## The decoder -/

def readForm? (t : Tex) : Option (Char × Tex) :=
  escapedForms.findSome? fun f => (stripPrefix? f.2 t).map (f.1, ·)

theorem readForm?_eq_some {t r : Tex} {c : Char} (h : readForm? t = some (c, r)) :
    ∃ w, (c, w) ∈ escapedForms ∧ t = w ++ r := by
  obtain ⟨f, mem, found⟩ := List.exists_of_findSome?_eq_some h
  obtain ⟨rest, cut, same⟩ := Option.map_eq_some_iff.mp found
  obtain ⟨rfl, rfl⟩ := Prod.mk.inj same
  exact ⟨f.2, mem, stripPrefix?_eq_some.mp cut⟩

def unescape : Tex → List Char
  | [] => []
  | c :: t =>
    match _h : readForm? (c :: t) with
    | some (d, r) => d :: unescape r
    | none => c :: unescape t
  termination_by t => t.length
  decreasing_by
    · obtain ⟨w, mem, whole⟩ := readForm?_eq_some _h
      obtain ⟨v, rfl⟩ := exists_backslash _ mem
      have lengths := congrArg List.length whole
      simp only [List.length_cons, List.length_append] at lengths ⊢
      omega
    · simp

theorem readForm?_append {c : Char} {w : Tex} (mem : (c, w) ∈ escapedForms) (t : Tex) :
    readForm? (w ++ t) = some (c, t) := by
  cases found : readForm? (w ++ t) with
  | none =>
    have none := List.findSome?_eq_none_iff.mp found (c, w) mem
    rw [stripPrefix?_eq_some.mpr rfl] at none
    cases none
  | some f =>
    obtain ⟨v, memV, whole⟩ := readForm?_eq_some found
    -- Both forms start one text, so one of them is a prefix of the other, and no form is that of another.
    have same : (c, w) = (f.1, v) := by
      obtain shorter | longer := List.prefix_or_prefix_of_prefix ⟨t, rfl⟩ ⟨f.2, whole.symm⟩
      · exact eq_of_isPrefix_form _ mem _ memV shorter
      · exact (eq_of_isPrefix_form _ memV _ mem longer).symm
    obtain ⟨rfl, rfl⟩ := Prod.mk.inj same
    rw [List.append_cancel_left whole]

theorem readForm?_of_plain {c : Char} (plain : c ∉ escapedForms.map Prod.fst) (t : Tex) :
    readForm? (c :: t) = none := by
  rw [Option.eq_none_iff_forall_ne_some]
  rintro ⟨d, r⟩ found
  obtain ⟨w, mem, whole⟩ := readForm?_eq_some found
  obtain ⟨v, rfl⟩ := exists_backslash _ mem
  obtain rfl : c = '\\' := (List.cons.inj whole).1
  exact plain (by decide)

theorem unescape_append {p : Tex} {c : Char} (h : Denotes p c) (t : Tex) :
    unescape (p ++ t) = c :: unescape t := by
  cases h with
  | form mem =>
    have found := readForm?_append mem t
    obtain ⟨v, rfl⟩ := exists_backslash _ mem
    rw [List.cons_append] at found ⊢
    rw [unescape]
    split
    · case h_1 eq =>
      rw [found] at eq
      obtain ⟨rfl, rfl⟩ := Prod.mk.inj (Option.some.inj eq)
      rfl
    · case h_2 eq =>
      rw [found] at eq
      cases eq
  | self plain =>
    rw [List.singleton_append, unescape]
    split
    · case h_1 eq =>
      rw [readForm?_of_plain plain] at eq
      cases eq
    · rfl

theorem unescape_escape (s : List Char) : unescape (escape s) = s := by
  induction s with
  | nil => simp [unescape]
  | cons c s ih =>
    rw [escape, List.flatMap_cons, unescape_append (denotes_escapeChar c)]
    exact congrArg (c :: ·) ih

theorem escape_injective : Function.Injective escape :=
  Function.LeftInverse.injective unescape_escape

theorem escape_unescape {t : Tex} (h : InCode t) : escape (unescape t) = t := by
  obtain ⟨s, rfl⟩ := inCode_iff.mp h
  rw [unescape_escape]

theorem denotes_of_flatten_eq_escape {ps : List Tex} (pieces : ∀ p ∈ ps, ∃ c, Denotes p c)
    {s : List Char} (whole : ps.flatten = escape s) : List.Forall₂ Denotes ps s := by
  induction ps generalizing s with
  | nil =>
    obtain rfl : s = [] := escape_eq_nil_iff.mp whole.symm
    exact .nil
  | cons p ps ih =>
    rw [List.forall_mem_cons] at pieces
    obtain ⟨⟨c, denotes⟩, pieces⟩ := pieces
    -- the decoder finds the same first character, whichever way the text was put together
    have decoded : c :: unescape ps.flatten = s := by
      rw [← unescape_append denotes, ← List.flatten_cons, whole, unescape_escape]
    have rest := escape_unescape ⟨ps, rfl, pieces⟩
    rw [← decoded]
    exact .cons denotes (ih pieces rest.symm)

/-- Escaping loses nothing: the escaped texts are the texts of the code, each of them is that of one text
only, and it falls into one piece for each character of that text, whatever the pieces look like. -/
theorem escape_lossless :
    (∀ s, InCode (escape s)) ∧ (∀ t, InCode t → ∃! s, escape s = t) ∧ (∀ s, unescape (escape s) = s) ∧
      (∀ t, InCode t → escape (unescape t) = t) ∧ Function.Injective escape ∧
      ∀ s ps, (∀ p ∈ ps, ∃ c, Denotes p c) → ps.flatten = escape s → List.Forall₂ Denotes ps s := by
  refine ⟨fun s => inCode_iff.mpr ⟨s, rfl⟩, fun t code => ?_, unescape_escape, fun _ => escape_unescape,
    escape_injective, fun s ps pieces => denotes_of_flatten_eq_escape pieces⟩
  refine ⟨unescape t, escape_unescape code, fun s same => ?_⟩
  rw [← same, unescape_escape]

theorem escape_lossless_backslashBrace :
    let t : Tex := "\\textbackslash\x7b\x7d\\\x7b"
    let ps : List Tex := ["\\textbackslash\x7b\x7d", "\\\x7b"]
    InCode t ∧ (∃! s, escape s = t) ∧ escape (unescape t) = t ∧
      (∀ p ∈ ps, ∃ c, Denotes p c) ∧ ps.flatten = escape ['\\', '{'] ∧
      List.Forall₂ Denotes ps ['\\', '{'] := by
  intro t ps
  have pieces : ∀ p ∈ ps, ∃ c, Denotes p c := by
    simp only [ps, List.forall_mem_cons]
    exact ⟨⟨'\\', .form (by decide)⟩, ⟨'{', .form (by decide)⟩, List.forall_mem_nil _⟩
  have code : InCode t := ⟨ps, rfl, pieces⟩
  have ⟨_, unique, _, decoded, _, denotes⟩ := escape_lossless
  exact ⟨code, unique t code, decoded t code, pieces, rfl, denotes _ _ pieces rfl⟩

end Vitae.Tex
