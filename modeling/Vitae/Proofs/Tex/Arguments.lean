import Vitae.Proofs.Tex.Absence
import Vitae.Proofs.Tex.BlankLine
import Vitae.Proofs.Tex.Nesting
import Vitae.Proofs.Reading.Text

namespace Vitae.Tex

open Text

/-! ## Groups -/

/-- The text up to the closing brace of a group, and the text behind that brace. The number is that of the groups
that are open in between. A backslash hides the character behind it. -/
def cutGroup? : Nat → Tex → Option (Tex × Tex)
  | _, [] => none
  | n, '\\' :: c :: t => (cutGroup? n t).map fun p => ('\\' :: c :: p.1, p.2)
  | n, '{' :: t => (cutGroup? (n + 1) t).map fun p => ('{' :: p.1, p.2)
  | 0, '}' :: t => some ([], t)
  | n + 1, '}' :: t => (cutGroup? n t).map fun p => ('}' :: p.1, p.2)
  | n, c :: t => (cutGroup? n t).map fun p => (c :: p.1, p.2)

/-- The text opens and closes groups so that `m` of them are open behind it when `n` are in front of it, and does not
end in a backslash. -/
inductive Spans : Nat → Tex → Nat → Prop where
  | nil {n : Nat} : Spans n [] n
  | hidden {n m : Nat} {t : Tex} (c : Char) (rest : Spans n t m) : Spans n ('\\' :: c :: t) m
  | opens {n m : Nat} {t : Tex} (rest : Spans (n + 1) t m) : Spans n ('{' :: t) m
  | closes {n m : Nat} {t : Tex} (rest : Spans n t m) : Spans (n + 1) ('}' :: t) m
  | ordinary {n m : Nat} {c : Char} {t : Tex} (self : isOrdinary c = true) (rest : Spans n t m) : Spans n (c :: t) m

def openBehind? : Nat → Tex → Option Nat
  | n, [] => some n
  | _, ['\\'] => none
  | n, '\\' :: _ :: t => openBehind? n t
  | n, '{' :: t => openBehind? (n + 1) t
  | 0, '}' :: _ => none
  | n + 1, '}' :: t => openBehind? n t
  | n, _ :: t => openBehind? n t

variable {s t : Tex} {m n k : Nat}

theorem isOrdinary_iff {c : Char} : isOrdinary c = true ↔ c ≠ '\\' ∧ c ≠ '{' ∧ c ≠ '}' := by
  simp [isOrdinary, and_assoc]

theorem spans_iff : Spans n s m ↔ openBehind? n s = some m := by
  constructor
  · intro spans
    induction spans with
    | nil => rfl
    | hidden | opens | closes => assumption
    | @ordinary n m c t self _ ih =>
      obtain ⟨backslash, opening, closing⟩ := isOrdinary_iff.mp self
      rw [openBehind?] <;> simp [backslash, opening, closing, ih]
  · intro computed
    fun_induction openBehind? n s with
    | case1 => cases computed; exact .nil
    | case2 | case5 => cases computed
    | case3 n c t ih => exact .hidden c (ih computed)
    | case4 n t ih => exact .opens (ih computed)
    | case6 n t ih => exact .closes (ih computed)
    | case7 n c t lone hidden opening outside closing ih =>
      refine .ordinary (isOrdinary_iff.mpr ⟨fun same => ?_, opening, fun same => ?_⟩) (ih computed)
      · cases t with
        | nil => exact lone same rfl
        | cons d t => exact hidden d t same rfl
      · cases n with
        | zero => exact outside rfl same
        | succ n => exact closing n rfl same

namespace Spans

theorem append (hs : Spans n s m) (ht : Spans m t k) : Spans n (s ++ t) k := by
  induction hs with
  | nil => exact ht
  | hidden c _ ih => exact .hidden c (ih ht)
  | opens _ ih => exact .opens (ih ht)
  | closes _ ih => exact .closes (ih ht)
  | ordinary self _ ih => exact .ordinary self (ih ht)

theorem within (h : Spans n s m) (outer : Nat) : Spans (n + outer) s (m + outer) := by
  induction h with
  | nil => exact .nil
  | hidden c _ ih => exact .hidden c ih
  | @opens n m t _ ih => exact .opens (Nat.add_right_comm n 1 outer ▸ ih)
  | @closes n m t _ ih => exact Nat.add_right_comm n outer 1 ▸ .closes ih
  | ordinary self _ ih => exact .ordinary self ih

theorem cutGroup?_append (h : Spans n s m) (t : Tex) :
    cutGroup? n (s ++ t) = (cutGroup? m t).map fun p => (s ++ p.1, p.2) := by
  induction h with
  | nil => simp
  | hidden c _ ih => simp [cutGroup?, ih, Function.comp_def]
  | opens _ ih => simp [cutGroup?, ih, Function.comp_def]
  | closes _ ih => simp [cutGroup?, ih, Function.comp_def]
  | @ordinary n m c s self _ ih =>
    obtain ⟨backslash, opening, closing⟩ := isOrdinary_iff.mp self
    rw [List.cons_append, cutGroup?] <;> simp [backslash, opening, closing, ih, Function.comp_def]

end Spans

abbrev Level (s : Tex) : Prop :=
  Spans 0 s 0

instance : DecidablePred Level :=
  fun _ => decidable_of_iff _ spans_iff.symm

namespace Level

theorem braced (h : Level s) : Level (braced s) := by
  have inner := h.within 1
  exact .opens (inner.append (.closes .nil))

theorem flatMap {α : Type} {l : List α} {f : α → Tex} (h : ∀ x ∈ l, Level (f x)) : Level (l.flatMap f) := by
  induction l with
  | nil => exact .nil
  | cons x l ih =>
    rw [List.forall_mem_cons] at h
    exact h.1.append (ih h.2)

theorem escape (s : List Char) : Level (escape s) := by
  have forms : ∀ f ∈ escapedForms, Level f.2 := by decide
  refine flatMap fun c _ => escapeChar_cases forms fun plain => .ordinary (isOrdinary_iff.mpr ⟨?_, ?_, ?_⟩) .nil
  all_goals
    rintro rfl
    exact plain (by decide)

theorem hardened (h : Target.Hardened s) : Level s := by
  induction h with
  | nil => exact .nil
  | escaped _ _ ih => exact .hidden _ ih
  | plain _ safe _ _ ih =>
    refine .ordinary (isOrdinary_iff.mpr ⟨?_, ?_, ?_⟩) ih
    all_goals
      rintro rfl
      exact safe (by decide)

theorem cutGroup?_append (h : Level s) (t : Tex) : cutGroup? 0 (s ++ '}' :: t) = some (s, t) := by
  rw [Spans.cutGroup?_append h]
  simp [cutGroup?]

end Level

/-! ## Arguments -/

/-- The commands with one argument, in which no paragraph may end. -/
def argumentWords : List String :=
  ["textbf", "textit", "MakeUppercase", "section*"]

def argumentStarts : List Tex :=
  linkStart :: argumentWords.map fun w => control w ++ ['{']

def argument? (t : Tex) : Option Tex :=
  (cutGroup? 0 t).map Prod.fst

def linkArguments (t : Tex) : List Tex :=
  match cutGroup? 0 t with
  | some (target, '{' :: r) => target :: (argument? r).toList
  | some (target, _) => [target]
  | none => []

def leadingArguments (t : Tex) : List Tex :=
  match stripPrefix? linkStart t with
  | some r => linkArguments r
  | none => ((argumentWords.findSome? fun w => stripPrefix? (control w ++ ['{']) t).bind argument?).toList

/-- The arguments of all these commands, also of those inside other arguments. -/
def arguments : Tex → List Tex
  | [] => []
  | '\\' :: c :: t => leadingArguments ('\\' :: c :: t) ++ arguments t
  | _ :: t => arguments t

theorem arguments_char {c : Char} (h : c ≠ '\\') (t : Tex) : arguments (c :: t) = arguments t := by
  rw [arguments]
  exact fun _ _ same => absurd same h

theorem arguments_append_of_not_mem (plain : '\\' ∉ s) (t : Tex) : arguments (s ++ t) = arguments t := by
  induction s with
  | nil => rfl
  | cons c s ih =>
    rw [List.mem_cons, not_or] at plain
    rw [List.cons_append, arguments_char (Ne.symm plain.1), ih plain.2]

theorem arguments_control {w : String} (ne : w ≠ "") (plain : '\\' ∉ w.toList) (t : Tex) :
    arguments (control w ++ t) = leadingArguments (control w ++ t) ++ arguments t := by
  unfold control
  cases name : w.toList with
  | nil => exact absurd (String.toList_eq_nil_iff.mp name) ne
  | cons c cs =>
    rw [name, List.mem_cons, not_or] at plain
    rw [List.cons_append, List.cons_append, arguments, arguments_append_of_not_mem plain.2]

theorem arguments_word {w : String} (mem : w ∈ argumentWords) (t : Tex) :
    arguments (control w ++ '{' :: t) = (argument? t).toList ++ arguments t := by
  have names : ∀ w ∈ argumentWords, w ≠ "" ∧ '\\' ∉ w.toList := by decide
  have leading : leadingArguments (control w ++ '{' :: t) = (argument? t).toList := by
    simp only [argumentWords, List.mem_cons, List.not_mem_nil, or_false] at mem
    rcases mem with rfl | rfl | rfl | rfl <;> rfl
  rw [arguments_control (names w mem).1 (names w mem).2, leading, arguments_char (by decide)]

theorem arguments_link (t : Tex) : arguments (linkStart ++ t) = linkArguments t ++ arguments t := by
  have whole : linkStart ++ t = control "href" ++ '{' :: t := rfl
  rw [whole, arguments_control (by decide) (by decide), arguments_char (by decide)]
  rfl

def Mute (s : Tex) : Prop :=
  Level s ∧ ∀ p ∈ argumentStarts, lacks p s = true

instance : DecidablePred Mute :=
  fun _ => inferInstanceAs (Decidable (_ ∧ _))

theorem leadingArguments_eq_nil (h : ∀ p ∈ argumentStarts, differ p s = true) (t : Tex) :
    leadingArguments (s ++ t) = [] := by
  have absent (p : Tex) (mem : p ∈ argumentStarts) : stripPrefix? p (s ++ t) = none := by
    rw [Option.eq_none_iff_forall_ne_some]
    intro r found
    exact not_prefix_of_differ (differ_append (h p mem) t) ⟨r, (stripPrefix?_eq_some.mp found).symm⟩
  have words : (argumentWords.findSome? fun w => stripPrefix? (control w ++ ['{']) (s ++ t)) = none :=
    List.findSome?_eq_none_iff.mpr fun w mem =>
      absent _ (List.mem_cons_of_mem _ (List.mem_map_of_mem mem))
  rw [leadingArguments, absent linkStart List.mem_cons_self, words]
  rfl

theorem Spans.arguments_append (h : Spans n s m) (starts : ∀ p ∈ argumentStarts, lacks p s = true) (t : Tex) :
    arguments (s ++ t) = arguments t := by
  induction h with
  | nil => rfl
  | @hidden n m s c _ ih =>
    simp only [lacks, Bool.and_eq_true, forall_and] at starts
    have leading := leadingArguments_eq_nil starts.1 t
    rw [List.cons_append, List.cons_append] at leading ⊢
    rw [arguments, leading, ih starts.2.2, List.nil_append]
  | opens _ ih | closes _ ih =>
    simp only [lacks, Bool.and_eq_true, forall_and] at starts
    rw [List.cons_append, arguments_char (by decide), ih starts.2]
  | ordinary self _ ih =>
    simp only [lacks, Bool.and_eq_true, forall_and] at starts
    rw [List.cons_append, arguments_char (isOrdinary_iff.mp self).1, ih starts.2]

/-! ### User text -/

namespace Mute

theorem append (hs : Mute s) (ht : Mute t) : Mute (s ++ t) :=
  ⟨Spans.append hs.1 ht.1, fun p mem => lacks_append (hs.2 p mem) (ht.2 p mem)⟩

theorem reserved {p : Tex} (mem : p ∈ argumentStarts) : Reserved p := by
  have forms : ∀ p ∈ argumentStarts, ∀ f ∈ escapedForms, lacks p f.2 = true := by decide
  have start : ∀ p ∈ argumentStarts, p.head? = some '\\' := by decide
  exact ⟨start p mem, forms p mem⟩

theorem escape (s : List Char) : Mute (escape s) :=
  ⟨.escape s, fun _ mem => (reserved mem).lacks_escape s⟩

theorem hardened (h : Target.Hardened s) : Mute s :=
  ⟨.hardened h, fun _ mem => (reserved mem).lacks_hardened h⟩

end Mute

/-! ## What the arguments of a text enclose -/

def IsTorn (text : String) : Prop :=
  HasBlankLine (trim text.toList)

/-- The text has no argument in it, and a blank line exactly if one of the texts is torn. -/
structure Bears (s : Tex) (texts : List String) : Prop where
  mute : Mute s
  torn : HasBlankLine s ↔ ∃ text ∈ texts, IsTorn text

/-- The arguments of the text are complete in it. One of them has a blank line exactly if one of the texts is
torn. -/
structure Encloses (s : Tex) (texts : List String) : Prop where
  level : Level s
  arguments : ∃ args, (∀ t, arguments (s ++ t) = args ++ arguments t) ∧
    ((∃ a ∈ args, HasBlankLine a) ↔ ∃ text ∈ texts, IsTorn text)

variable {texts others : List String}

namespace Bears

theorem escapeTrimmed (text : String) : Bears (escapeTrimmed text.toList) [text] := by
  refine ⟨.escape _, ?_⟩
  rw [Tex.escapeTrimmed, hasBlankLine_escape]
  simp [IsTorn]

theorem line {line : List Char} (whole : '\n' ∉ line) : Bears (escape line) [] := by
  refine ⟨.escape line, ?_⟩
  rw [hasBlankLine_escape]
  simpa using not_hasBlankLine whole

theorem behind {front : Tex} (h : Bears s texts) (mute : Mute front) (whole : '\n' ∉ front) :
    Bears (front ++ s) texts :=
  ⟨mute.append h.mute, (hasBlankLine_append_of_not_mem whole).trans h.torn⟩

end Bears

namespace Encloses

theorem mute (h : Mute s) : Encloses s [] :=
  ⟨h.1, [], h.1.arguments_append h.2, by simp⟩

theorem nil : Encloses [] [] :=
  .mute (by decide)

theorem append (hs : Encloses s texts) (ht : Encloses t others) : Encloses (s ++ t) (texts ++ others) := by
  obtain ⟨args, argsEq, torn⟩ := hs.arguments
  obtain ⟨more, moreEq, tornMore⟩ := ht.arguments
  refine ⟨Spans.append hs.level ht.level, args ++ more, fun k => ?_, ?_⟩
  · rw [List.append_assoc, argsEq, moreEq, List.append_assoc]
  · simp only [List.mem_append, or_and_right, exists_or, torn, tornMore]

theorem mute_append {front : Tex} (mute : Mute front) (h : Encloses s texts) : Encloses (front ++ s) texts :=
  append (.mute mute) h

theorem append_mute (h : Encloses s texts) {back : Tex} (mute : Mute back) : Encloses (s ++ back) texts := by
  simpa using h.append (.mute mute)

theorem braced (h : Encloses s texts) : Encloses (braced s) texts := by
  obtain ⟨args, argsEq, torn⟩ := h.arguments
  refine ⟨h.level.braced, args, fun k => ?_, torn⟩
  rw [Tex.braced, List.cons_append, arguments_char (by decide), List.append_assoc, argsEq]
  exact congrArg (args ++ ·) (arguments_char (by decide) k)

/-! ### Commands -/

theorem command {w : String} (mem : w ∈ argumentWords) (h : Bears s texts) : Encloses (command w s) texts := by
  obtain ⟨⟨level, starts⟩, torn⟩ := h
  have names : ∀ w ∈ argumentWords, Level (control w) := by decide
  refine ⟨Spans.append (names w mem) level.braced, [s], fun k => ?_, by simpa using torn⟩
  have whole : Tex.command w s ++ k = control w ++ '{' :: (s ++ '}' :: k) := by
    simp [Tex.command, Tex.braced]
  rw [whole, arguments_word mem, argument?, level.cutGroup?_append, level.arguments_append starts,
    arguments_char (by decide)]
  rfl

theorem href {target : Tex} (hard : Target.Hardened target) (h : Bears s texts) :
    Encloses (Target.href target s) texts := by
  obtain ⟨⟨level, starts⟩, torn⟩ := h
  obtain ⟨levelTarget, startsTarget⟩ := Mute.hardened hard
  have opens : Level (control "href") := by decide
  have whole : ¬HasBlankLine target := not_hasBlankLine fun mem => by
    have visible := (hard.visible _ mem).1
    cases visible
  refine ⟨Spans.append (opens.append levelTarget.braced) level.braced, [target, s], fun k => ?_,
    by simpa [whole] using torn⟩
  have text : Target.href target s ++ k = linkStart ++ (target ++ '}' :: '{' :: (s ++ '}' :: k)) := by
    simp [Target.href, Tex.braced, linkStart]
  have arguments : linkArguments (target ++ '}' :: '{' :: (s ++ '}' :: k)) = [target, s] := by
    simp [linkArguments, levelTarget.cutGroup?_append, argument?, level.cutGroup?_append]
  rw [text, arguments_link, arguments, levelTarget.arguments_append startsTarget, arguments_char (by decide),
    arguments_char (by decide), level.arguments_append starts, arguments_char (by decide)]

theorem present {f : Tex → Tex} (h : Encloses s texts) (hf : Encloses (f s) texts) :
    Encloses (present f s) texts := by
  unfold Tex.present
  split
  · case isTrue empty => exact List.isEmpty_iff.mp empty ▸ h
  · exact hf

theorem nothing (h : Bears [] texts) : Encloses [] texts := by
  refine ⟨.nil, [], fun _ => rfl, ?_⟩
  rw [← h.torn]
  simpa using not_hasBlankLine List.not_mem_nil

theorem presentArgument {f : Tex → Tex} (h : Bears s texts) (hf : Encloses (f s) texts) :
    Encloses (Tex.present f s) texts := by
  unfold Tex.present
  split
  · case isTrue empty =>
    rw [List.isEmpty_iff.mp empty] at h
    exact .nothing h
  · exact hf

theorem styled {w : String} (mem : w ∈ argumentWords) (h : Bears s texts) : Encloses (styled w s) texts :=
  presentArgument h (.command mem h)

theorem grouped {declarations : Tex} (mute : Mute (declarations ++ " ")) (h : Encloses s texts) :
    Encloses (grouped declarations s) texts :=
  h.present (h.mute_append mute).braced

theorem coloured {colour : String} (mute : Mute (Tex.command "textcolor" colour)) (h : Encloses s texts) :
    Encloses (coloured colour s) texts :=
  h.present (h.braced.mute_append mute)

/-! ### Parts -/

theorem flatMap {α : Type} {l : List α} {f : α → Tex} {g : α → List String}
    (h : ∀ x ∈ l, Encloses (f x) (g x)) : Encloses (l.flatMap f) (l.flatMap g) := by
  induction l with
  | nil => exact nil
  | cons x l ih =>
    rw [List.forall_mem_cons] at h
    exact h.1.append (ih h.2)

theorem join {α : Type} {separator : Tex} (between : Mute separator) {l : List α} {f : α → Tex}
    {g : α → List String} (h : ∀ x ∈ l, Encloses (f x) (g x)) :
    Encloses (join separator (l.map f)) (l.flatMap g) := by
  cases l with
  | nil => exact nil
  | cons x l =>
    rw [List.forall_mem_cons] at h
    rw [List.map_cons, join_cons, List.flatMap_map]
    exact h.1.append (.flatMap fun y mem => (h.2 y mem).mute_append between)

theorem joinPlain {separator : Tex} (between : Mute separator) {parts : List Tex}
    (h : ∀ p ∈ parts, Encloses p []) : Encloses (Tex.join separator parts) [] := by
  have none : parts.flatMap (fun _ => ([] : List String)) = [] := List.flatMap_eq_nil_iff.mpr fun _ _ => rfl
  have parts := join between (f := id) h
  rwa [List.map_id, none] at parts

theorem joinSome {α : Type} {separator : Tex} (between : Mute separator) {l : List α} {f : α → Option Tex}
    {g : α → List String} (h : ∀ x ∈ l, ∀ s, f x = some s → Encloses s (g x)) :
    Encloses (Tex.join separator (l.filterMap f)) ((l.filter fun x => (f x).isSome).flatMap g) := by
  have parts : l.filterMap f = (l.filter fun x => (f x).isSome).map fun x => (f x).getD [] := by
    clear h
    induction l with
    | nil => rfl
    | cons x l ih =>
      cases value : f x <;> simp [value, ih]
  rw [parts]
  refine join between fun x mem => ?_
  obtain ⟨memL, isSome⟩ := List.mem_filter.mp mem
  obtain ⟨s, value⟩ := Option.isSome_iff_exists.mp isSome
  rw [value]
  exact h x memL s value

theorem behind {separator : Tex} (between : Mute separator) (h : Encloses t others) :
    Encloses (behind separator s t) others := by
  unfold Tex.behind
  split
  · exact h
  · exact h.mute_append between

theorem joinPresent_cons {separator : Tex} {parts : List Tex} (between : Mute separator) (hs : Encloses s texts)
    (ht : Encloses (joinPresent separator parts) others) :
    Encloses (joinPresent separator (s :: parts)) (texts ++ others) := by
  rw [Tex.joinPresent_cons]
  exact hs.append (ht.behind between)

theorem pair {separator : Tex} (between : Mute separator) (hs : Encloses s texts) (ht : Encloses t others) :
    Encloses (joinPresent separator [s, t]) (texts ++ others) := by
  refine joinPresent_cons between hs ?_
  rwa [joinPresent_singleton]

theorem guardLineStart (h : Encloses s texts) : Encloses (guardLineStart s) texts := by
  have guard : Mute (Tex.braced []) := by decide
  unfold Tex.guardLineStart
  split
  · exact h.mute_append guard
  · exact h

theorem environment {n : String} {start : Tex} (opens : Mute (opening n ++ start ++ "\n"))
    (closes : Mute ("\n" ++ closing n)) (h : Encloses s texts) : Encloses (environment n start s) texts := by
  have whole := (h.mute_append opens).append_mute closes
  simpa only [Tex.environment, List.append_assoc] using whole

theorem itemize {items : List Tex} (h : Encloses (Tex.join "\n" items) texts) :
    Encloses (itemize items) texts := by
  unfold Tex.itemize
  split
  · case isTrue empty =>
    rw [List.isEmpty_iff.mp empty] at h
    exact h
  · exact .environment (by decide) (by decide) h

end Encloses

end Vitae.Tex
