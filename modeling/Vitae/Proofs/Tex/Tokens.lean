import Vitae.Proofs.Tex.Lexer
import Vitae.Proofs.Tex.Absence
import Mathlib.Data.List.TakeWhile

namespace Vitae.Tex

variable {s t e : Tex} {k : Token}

def tokens (t : Tex) : List Token :=
  (lex t).map Prod.fst

@[simp] theorem tokens_nil : tokens [] = [] := by
  rw [tokens, lex_nil, List.map_nil]

/-! ## Parts -/

/-- No token goes over from the first text into the second one: the first does not end in a backslash, nor in a
letter where the second goes on with one. -/
def Apart (s t : Tex) : Prop :=
  ∀ c ∈ s.getLast?, c ≠ '\\' ∧ (c.isAlpha = true → startsLetter t = false)

theorem Apart.tail (h : Apart (e ++ s) t) : Apart s t := by
  intro c mem
  refine h c ?_
  rw [List.getLast?_append, Option.mem_def.mp mem]
  rfl

theorem tokens_append (apart : Apart s t) : tokens (s ++ t) = tokens s ++ tokens t := by
  unfold tokens
  fun_induction lex s with
  | case1 => rfl
  | case2 => exact absurd rfl (apart '\\' rfl).1
  | case3 c s letter ih =>
    have whole : s ++ t = s.takeWhile Char.isAlpha ++ (s.dropWhile Char.isAlpha ++ t) := by
      rw [← List.append_assoc, List.takeWhile_append_dropWhile]
    have letters : (s.takeWhile Char.isAlpha).all Char.isAlpha = true := List.all_takeWhile
    -- the word ends where it did: in front of a character that is no letter, or of the second text
    have stop : startsLetter (s.dropWhile Char.isAlpha ++ t) = false := by
      cases cut : s.dropWhile Char.isAlpha with
      | nil =>
        obtain ⟨d, last⟩ := List.getLast?_isSome.mpr (List.cons_ne_nil c s) |> Option.isSome_iff_exists.mp
        have alpha : ∀ x ∈ c :: s, x.isAlpha = true :=
          List.forall_mem_cons.mpr ⟨letter, List.dropWhile_eq_nil_iff.mp cut⟩
        have apartWord : Apart (c :: s) t := Apart.tail (e := ['\\']) apart
        exact (apartWord d last).2 (alpha d (List.mem_of_getLast? last))
      | cons d rest =>
        have first := List.head?_dropWhile_not Char.isAlpha s
        rw [cut] at first
        exact first
    have rest : Apart (s.dropWhile Char.isAlpha) t := by
      refine Apart.tail (e := '\\' :: c :: s.takeWhile Char.isAlpha) ?_
      simpa using apart
    rw [List.cons_append, List.cons_append, lex, if_pos letter, whole,
      takeWhile_isAlpha_append letters stop, dropWhile_isAlpha_append letters stop]
    simp [ih rest]
  | case4 c s other ih =>
    rw [List.cons_append, List.cons_append, lex_symbol (by simpa using other)]
    simp [ih (Apart.tail (e := ['\\', c]) apart)]
  | case5 c s lone other ih =>
    have plain : c ≠ '\\' := by
      rintro rfl
      cases s with
      | nil => exact lone rfl rfl
      | cons d s => exact other d s rfl rfl
    rw [List.cons_append, lex_char plain]
    simp [ih (Apart.tail (e := [c]) apart)]

def Ended (s : Tex) : Prop :=
  s.getLast? ≠ some '\\'

instance : DecidablePred Ended :=
  fun s => inferInstanceAs (Decidable (s.getLast? ≠ some '\\'))

theorem Ended.append (hs : Ended s) (ht : Ended t) : Ended (s ++ t) := by
  rw [Ended] at ht ⊢
  rw [List.getLast?_append]
  cases last : t.getLast? with
  | none => exact hs
  | some c => rwa [last] at ht

theorem Ended.behind (h : Ended t) (ne : t ≠ []) (s : Tex) : Ended (s ++ t) := by
  rwa [Ended, List.getLast?_append_of_ne_nil _ ne]

theorem ended_escape (s : List Char) : Ended (escape s) := by
  have forms : ∀ f ∈ escapedForms, Ended f.2 := by decide
  rcases List.eq_nil_or_concat s with rfl | ⟨s, c, rfl⟩
  · decide
  · rw [List.concat_eq_append, escape_append, escape_singleton]
    refine Ended.behind (escapeChar_cases forms fun plain last => ?_) (escapeChar_ne_nil c) _
    obtain rfl := Option.some.inj last
    exact plain (by decide)

theorem ended_braced (s : Tex) : Ended (braced s) := by
  simp [Ended, braced, List.getLast?_cons]

theorem Target.Hardened.ended (h : Target.Hardened s) : Ended s := by
  intro last
  obtain ⟨c, r, none, -⟩ := h.behind_backslash (List.getLast?_eq_some_iff.mp last).choose_spec
  cases none

theorem tokens_cons {c : Char} (h : c ≠ '\\') (t : Tex) : tokens (c :: t) = .char c :: tokens t := by
  rw [tokens, lex_char h, List.map_cons, tokens]

theorem tokens_control_append {name : String} (ne : name ≠ "") (letters : name.toList.all Char.isAlpha = true)
    (stop : startsLetter t = false) : tokens (control name ++ t) = .word name :: tokens t := by
  rw [tokens, lex_control ne letters stop, List.map_cons, tokens]

/-! ## Spellings -/

def Token.spelling : Token → Tex
  | .word w => control w
  | .symbol c => ['\\', c]
  | .dangling => ['\\']
  | .char c => [c]

theorem Token.spelling_ne_nil (k : Token) : k.spelling ≠ [] := by
  cases k <;> simp [spelling, control]

theorem spelling_of_mem_tokens (mem : k ∈ tokens s) : k.spelling <:+: s := by
  unfold tokens at mem
  fun_induction lex s with
  | case1 => cases mem
  | case2 =>
    obtain rfl := List.mem_singleton.mp mem
    exact List.infix_refl _
  | case3 c s letter ih =>
    have whole : '\\' :: c :: s = control (String.ofList (c :: s.takeWhile Char.isAlpha)) ++
        s.dropWhile Char.isAlpha := by
      simp [control]
    rw [whole]
    obtain rfl | mem := List.mem_cons.mp mem
    · exact (List.prefix_append _ _).isInfix
    · exact (ih mem).trans (List.suffix_append _ _).isInfix
  | case4 c s other ih =>
    obtain rfl | mem := List.mem_cons.mp mem
    · exact (List.prefix_append ['\\', c] s).isInfix
    · exact (ih mem).trans (List.suffix_append ['\\', c] s).isInfix
  | case5 c s lone other ih =>
    obtain rfl | mem := List.mem_cons.mp mem
    · exact (List.prefix_append [c] s).isInfix
    · exact (ih mem).trans (List.suffix_append [c] s).isInfix

theorem not_mem_tokens (h : lacks k.spelling s = true) : k ∉ tokens s :=
  fun mem => not_infix_of_lacks h k.spelling_ne_nil (spelling_of_mem_tokens mem)

theorem count_tokens_of_lacks (h : lacks k.spelling s = true) : (tokens s).count k = 0 :=
  List.count_eq_zero.mpr (not_mem_tokens h)

/-! ## Counting -/

theorem count_tokens_append (apart : Apart s t) (k : Token) :
    (tokens (s ++ t)).count k = (tokens s).count k + (tokens t).count k := by
  rw [tokens_append apart, List.count_append]

/-- A text that stands apart from any text behind it, and any text that does not end in a backslash from
it. -/
structure Separator (e : Tex) : Prop where
  start : e.head?.any (!·.isAlpha) = true
  last : e.getLast?.all (fun c => c != '\\' && !c.isAlpha) = true

instance : DecidablePred Separator := fun e =>
  decidable_of_iff (e.head?.any (!·.isAlpha) = true ∧ e.getLast?.all (fun c => c != '\\' && !c.isAlpha) = true)
    ⟨fun h => ⟨h.1, h.2⟩, fun h => ⟨h.start, h.last⟩⟩

theorem Separator.of_mem_getLast? (h : Separator e) : ∀ c ∈ e.getLast?, c ≠ '\\' ∧ c.isAlpha = false := by
  intro c mem
  have last := h.last
  rw [Option.mem_def] at mem
  simpa [mem] using last

theorem Separator.apart (h : Separator e) (t : Tex) : Apart e t := by
  intro c mem
  obtain ⟨whole, noLetter⟩ := h.of_mem_getLast? c mem
  exact ⟨whole, fun letter => by simp [noLetter] at letter⟩

theorem Separator.ended (h : Separator e) : Ended e :=
  fun last => (h.of_mem_getLast? '\\' last).1 rfl

theorem Separator.behind (h : Separator e) (ended : Ended s) (t : Tex) : Apart s (e ++ t) := by
  intro c mem
  refine ⟨?_, fun _ => ?_⟩
  · rintro rfl
    exact ended mem
  · have start := h.start
    cases e with
    | nil => cases start
    | cons d e => simpa [startsLetter] using start

theorem Separator.ended_join (separator : Separator e) {parts : List Tex} (ended : ∀ p ∈ parts, Ended p) :
    Ended (join e parts) := by
  by_cases none : parts = []
  · subst none
    exact nofun
  · exact join_induction none ended fun p mem t rest => ((ended p mem).append separator.ended).append rest

theorem count_tokens_around {a b : Tex} (front : Separator a) (behind : Separator b) (ended : Ended s) (k : Token) :
    (tokens (a ++ (s ++ b))).count k = (tokens a).count k + (tokens s).count k + (tokens b).count k := by
  have apart : Apart s b := by simpa using behind.behind ended []
  rw [count_tokens_append (front.apart _), count_tokens_append apart, Nat.add_assoc]

theorem count_tokens_join (separator : Separator e) {parts : List Tex}
    (ended : ∀ p ∈ parts, Ended p) (k : Token) :
    (tokens (join e parts)).count k =
      (parts.flatMap tokens).count k + (parts.length - 1) * (tokens e).count k := by
  induction parts with
  | nil => simp [join]
  | cons p parts ih =>
    rw [List.forall_mem_cons] at ended
    cases parts with
    | nil => simp [join]
    | cons q parts =>
      rw [join_cons_cons, List.append_assoc, count_tokens_append (separator.behind ended.1 _),
        count_tokens_append (separator.apart _), ih ended.2]
      simp only [List.flatMap_cons, List.count_append, List.length_cons, Nat.add_sub_cancel, Nat.succ_mul]
      omega

end Vitae.Tex
