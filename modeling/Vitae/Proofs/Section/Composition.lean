import Vitae.Proofs.Reading.Text
import Vitae.Proofs.Section.Headings

/-!
# How a source is put together

The texts that a user writes and the markup around them are smooth: neither a section nor a line break
starts in them. A source is put together from smooth texts, sections, and blocks of lines with a line
break between any two of them. `Composed` says so, with the sections that start in a text.
-/

namespace Vitae.Tex

open Text

variable {s t : Tex}

def lineBreak : Tex :=
  ['\\', '\\']

/-- Neither a section nor a line break starts in the text, whatever stands behind it. -/
def Smooth (s : Tex) : Prop :=
  (lacks sectionStart s && lacks lineBreak s) = true

instance : DecidablePred Smooth :=
  fun s => inferInstanceAs (Decidable ((lacks sectionStart s && lacks lineBreak s) = true))

theorem smooth_iff : Smooth s ↔ Quiet s ∧ lacks lineBreak s = true := by
  rw [Smooth, Bool.and_eq_true]
  exact Iff.rfl

theorem Smooth.quiet (h : Smooth s) : Quiet s :=
  (smooth_iff.mp h).1

namespace Smooth

/-! ## Smooth texts -/

theorem nil : Smooth [] := rfl

theorem line : Smooth "\n".toList := rfl

theorem paragraph : Smooth "\n\n".toList := rfl

theorem append (hs : Smooth s) (ht : Smooth t) : Smooth (s ++ t) := by
  rw [smooth_iff] at hs ht ⊢
  exact ⟨lacks_append hs.1 ht.1, lacks_append hs.2 ht.2⟩

theorem flatMap {α : Type} {l : List α} {f : α → Tex} (h : ∀ x ∈ l, Smooth (f x)) :
    Smooth (l.flatMap f) := by
  induction l with
  | nil => exact nil
  | cons x l ih =>
    rw [List.forall_mem_cons] at h
    exact h.1.append (ih h.2)

theorem braced (h : Smooth s) : Smooth (braced s) :=
  append (s := ['{']) rfl (h.append rfl)

theorem command {w : String} (word : Smooth (control w)) (h : Smooth s) : Smooth (command w s) :=
  word.append h.braced

theorem join {separator : Tex} {parts : List Tex} (between : Smooth separator)
    (h : ∀ p ∈ parts, Smooth p) : Smooth (join separator parts) := by
  cases parts with
  | nil => exact nil
  | cons p parts =>
    rw [List.forall_mem_cons] at h
    rw [join_cons]
    exact h.1.append (.flatMap fun q mem => between.append (h.2 q mem))

theorem item (h : Smooth s) : Smooth (item s) :=
  append (s := "  \\item ".toList) rfl h

theorem itemize {items : List Tex} (h : ∀ i ∈ items, Smooth i) : Smooth (itemize items) := by
  have opens : Smooth (opening "itemize" ++ "\n") := rfl
  have closes : Smooth ("\n" ++ closing "itemize") := rfl
  unfold Tex.itemize
  split
  · exact nil
  · simpa [environment] using (opens.append (.join line h)).append closes

theorem guardLineStart (h : Smooth s) : Smooth (guardLineStart s) := by
  unfold Tex.guardLineStart
  split
  · exact append (s := Tex.braced []) rfl h
  · exact h

/-! ### User text -/

theorem reserved_sectionStart : Reserved sectionStart :=
  ⟨rfl, by decide⟩

theorem reserved_lineBreak : Reserved lineBreak :=
  ⟨rfl, by decide⟩

theorem escape (s : List Char) : Smooth (escape s) :=
  smooth_iff.mpr ⟨reserved_sectionStart.lacks_escape s, reserved_lineBreak.lacks_escape s⟩

theorem escapeTrimmed (s : List Char) : Smooth (escapeTrimmed s) :=
  escape _

theorem hardened (h : Target.Hardened s) : Smooth s :=
  smooth_iff.mpr ⟨reserved_sectionStart.lacks_hardened h, reserved_lineBreak.lacks_hardened h⟩

theorem href {u : Tex} (hard : Target.Hardened u) (h : Smooth s) : Smooth (Target.href u s) :=
  (append (s := control "href") rfl (hardened hard).braced).append h.braced

end Smooth

/-! ## Lines -/

def closingStart : Tex :=
  control "end" ++ ['{']

def startsLine : Tex → Bool
  | [] => false
  | c :: t => !isBlank c && differ closingStart (c :: t)

def LastLineVisible (s : Tex) : Prop :=
  ∃ a c b, s = a ++ c :: b ∧ isBlank c = false ∧ '\n' ∉ b

structure Line (s : Tex) : Prop where
  smooth : Smooth s
  first : startsLine s = true
  last : LastLineVisible s

/-- A text that is left out together with its line break when it is empty. -/
def Field (s : Tex) : Prop :=
  s ≠ [] → Line s

theorem startsLine_append (h : startsLine s = true) (t : Tex) : startsLine (s ++ t) = true := by
  cases s with
  | nil => cases h
  | cons c s =>
    rw [startsLine, Bool.and_eq_true] at h
    rw [List.cons_append, startsLine, Bool.and_eq_true]
    exact ⟨h.1, differ_append h.2 t⟩

theorem LastLineVisible.behind (h : LastLineVisible t) (s : Tex) : LastLineVisible (s ++ t) := by
  obtain ⟨a, c, b, rfl, visible, line⟩ := h
  exact ⟨s ++ a, c, b, (List.append_assoc ..).symm, visible, line⟩

theorem lastLineVisible_of_endsVisible (h : EndsVisible s) (ne : s ≠ []) : LastLineVisible s := by
  obtain ⟨a, c, rfl⟩ := List.eq_nil_or_concat s |>.resolve_left ne
  exact ⟨a, c, [], by simp, h c (by simp), List.not_mem_nil⟩

theorem lastLineVisible_braced (s : Tex) : LastLineVisible (braced s) :=
  lastLineVisible_of_endsVisible (solid_braced s).last (braced_ne_nil s)

namespace Line

theorem append (hs : Line s) (ht : Smooth t) (last : LastLineVisible t) : Line (s ++ t) :=
  ⟨hs.smooth.append ht, startsLine_append hs.first t, last.behind s⟩

theorem braced (h : Smooth s) : Line (braced s) :=
  ⟨h.braced, rfl, lastLineVisible_braced s⟩

theorem command {w : String} (word : Smooth (control w)) (first : startsLine (control w) = true)
    (h : Smooth s) : Line (command w s) :=
  ⟨word.command h, startsLine_append first _, (lastLineVisible_braced s).behind _⟩

theorem href {u : Tex} (hard : Target.Hardened u) (h : Smooth s) : Line (Target.href u s) :=
  ⟨.href hard h, rfl, (lastLineVisible_braced s).behind _⟩

theorem join {separator : Tex} {parts : List Tex} (between : Smooth separator)
    (h : ∀ p ∈ parts, Line p) (ne : parts ≠ []) : Line (join separator parts) := by
  refine join_induction ne h fun p mem t line => ?_
  rw [List.append_assoc]
  exact (h p mem).append (between.append line.smooth) (line.last.behind _)

theorem guardLineStart (h : Line s) : Line (guardLineStart s) := by
  unfold Tex.guardLineStart
  split
  · exact (braced .nil).append h.smooth h.last
  · exact h

theorem startsLine_escapeChar {c : Char} (visible : isBlank c = false) :
    startsLine (escapeChar c) = true := by
  unfold Tex.escapeChar
  split
  case h_11 ne _ _ _ _ _ _ _ _ _ =>
    have first : ('\\' != c) = true := bne_iff_ne.mpr (Ne.symm ne)
    simp [startsLine, closingStart, control, differ, visible, first]
  all_goals rfl

theorem escape {s : List Char} (solid : Solid s) (ne : s ≠ []) : Line (escape s) := by
  refine ⟨.escape s, ?_, lastLineVisible_of_endsVisible (solid_escape solid).last (by simpa using ne)⟩
  cases s with
  | nil => exact absurd rfl ne
  | cons c s =>
    rw [Tex.escape, List.flatMap_cons]
    exact startsLine_append (startsLine_escapeChar (solid.head c rfl)) _

end Line

namespace Field

theorem nil : Field [] :=
  fun ne => absurd rfl ne

theorem line (h : Line s) : Field s :=
  fun _ => h

theorem smooth (h : Field s) : Smooth s := by
  by_cases empty : s = []
  · rw [empty]
    exact .nil
  · exact (h empty).smooth

theorem escapeTrimmed (s : List Char) : Field (escapeTrimmed s) :=
  fun ne => .escape (solid_trim s) fun empty => ne (escape_eq_nil_iff.mpr empty)

theorem present {f : Tex → Tex} (h : s ≠ [] → Line (f s)) : Field (present f s) := by
  unfold Tex.present
  split
  · exact nil
  · case isFalse ne => exact line (h (by simpa using ne))

theorem styled {w : String} (word : Smooth (control w)) (first : startsLine (control w) = true)
    (h : Field s) : Field (styled w s) :=
  present fun _ => .command word first h.smooth

theorem coloured {colour : String} (name : Smooth colour) (h : Field s) : Field (coloured colour s) :=
  present fun _ => (Line.command (w := "textcolor") rfl rfl name).append h.smooth.braced
    (lastLineVisible_braced s)

theorem grouped {declarations : Tex} (markup : Smooth declarations) (h : Field s) :
    Field (grouped declarations s) :=
  present fun _ => .braced ((markup.append (t := " ".toList) rfl).append h.smooth)

theorem joinPresent {separator : Tex} {parts : List Tex} (between : Smooth separator)
    (h : ∀ p ∈ parts, Field p) : Field (joinPresent separator parts) := by
  intro ne
  refine .join between (forall_mem_present h) ?_
  intro none
  rw [Tex.joinPresent, none] at ne
  exact ne rfl

theorem pair {separator : Tex} (between : Smooth separator) (hs : Field s) (ht : Field t) :
    Field (Tex.joinPresent separator [s, t]) :=
  joinPresent between (forall_mem_pair hs ht)

end Field

/-! ## Composed texts -/

def lineEnds (length : String) : List Tex :=
  ["\\\\\n", breakLine length]

/-- How a text of a layout is put together, and the sections that start in it, each in full. -/
inductive Composed (length : String) : Tex → List Tex → Prop where
  | smooth {s : Tex} (h : Smooth s) : Composed length s []
  | append {s t : Tex} {bs cs : List Tex} (hs : Composed length s bs) (ht : Composed length t cs) :
      Composed length (s ++ t) (bs ++ cs)
  | lines {separator : Tex} {parts : List Tex} (mem : separator ∈ lineEnds length)
      (h : ∀ p ∈ parts, Line p) : Composed length (join separator parts) []
  | block {title body : Tex} (ht : Smooth title) (hb : Composed length body []) :
      Composed length (command "section*" title ++ body) [command "section*" title ++ body]

namespace Composed

variable {length : String} {bs cs : List Tex}

theorem append_smooth (hs : Composed length s bs) (ht : Smooth t) : Composed length (s ++ t) bs := by
  simpa using hs.append (.smooth ht)

theorem smooth_append (hs : Smooth s) (ht : Composed length t bs) : Composed length (s ++ t) bs :=
  (Composed.smooth hs).append ht

theorem braced (h : Composed length s bs) : Composed length (braced s) bs :=
  smooth_append (s := ['{']) rfl (h.append_smooth rfl)

theorem environment {n : String} {start body : Tex} (opens : Smooth (opening n)) (closes : Smooth (closing n))
    (hs : Smooth start) (hb : Composed length body bs) : Composed length (environment n start body) bs := by
  have front : Smooth (opening n ++ start ++ "\n") := (opens.append hs).append .line
  exact ((smooth_append front hb).append_smooth .line).append_smooth closes

theorem present {f : Tex → Tex} (h : Composed length s bs) (hf : Composed length (f s) bs) :
    Composed length (present f s) bs := by
  unfold Tex.present
  split
  · case isTrue empty =>
    rw [List.isEmpty_iff.mp empty] at h
    exact h
  · case isFalse => exact hf

theorem guardLineStart (h : Composed length s bs) : Composed length (guardLineStart s) bs := by
  unfold Tex.guardLineStart
  split
  · exact smooth_append (s := Tex.braced []) rfl h
  · exact h

theorem join {separator : Tex} {parts : List Tex} {blocks : Tex → List Tex} (between : Smooth separator)
    (h : ∀ p ∈ parts, Composed length p (blocks p)) :
    Composed length (join separator parts) (parts.flatMap blocks) := by
  induction parts with
  | nil => exact .smooth .nil
  | cons p parts ih =>
    rw [List.forall_mem_cons] at h
    cases parts with
    | nil => simpa [join_singleton] using h.1
    | cons q parts =>
      rw [join_cons_cons, List.flatMap_cons]
      exact (h.1.append_smooth between).append (ih h.2)

theorem joinBlocks {separator : Tex} {parts : List Tex} (between : Smooth separator)
    (h : ∀ p ∈ parts, Composed length p [p]) : Composed length (Tex.join separator parts) parts := by
  simpa using Composed.join between h

theorem joinPlain {separator : Tex} {parts : List Tex} (between : Smooth separator)
    (h : ∀ p ∈ parts, Composed length p []) : Composed length (Tex.join separator parts) [] := by
  have none : (parts.flatMap fun _ => ([] : List Tex)) = [] := List.flatMap_eq_nil_iff.mpr fun _ _ => rfl
  rw [← none]
  exact .join between h

theorem behind {separator : Tex} (between : Smooth separator) (ht : Composed length t bs) :
    Composed length (behind separator s t) bs := by
  unfold Tex.behind
  split
  · exact ht
  · exact smooth_append between ht

theorem joinPresent_cons {separator : Tex} {parts : List Tex} (between : Smooth separator)
    (hs : Composed length s bs) (hp : Composed length (joinPresent separator parts) cs) :
    Composed length (joinPresent separator (s :: parts)) (bs ++ cs) := by
  rw [Tex.joinPresent_cons]
  exact hs.append (hp.behind between)

theorem pair {separator : Tex} (between : Smooth separator) (hs : Composed length s bs)
    (ht : Composed length t cs) : Composed length (joinPresent separator [s, t]) (bs ++ cs) := by
  refine joinPresent_cons between hs ?_
  rw [joinPresent_singleton]
  exact ht

theorem presentLines {separator : Tex} {parts : List Tex} (mem : separator ∈ lineEnds length)
    (h : ∀ p ∈ parts, Field p) : Composed length (joinPresent separator parts) [] :=
  .lines mem (forall_mem_present h)

/-! ## Sections of a composed text -/

theorem quiet_lineEnds (plain : Smooth length.toList) : ∀ e ∈ lineEnds length, Quiet e := by
  have opens : Quiet "\\\\[".toList := rfl
  have closes : Quiet "]\n".toList := rfl
  have spaced : Quiet ("\\\\[".toList ++ length.toList ++ "]\n".toList) :=
    lacks_append (lacks_append opens plain.quiet) closes
  exact forall_mem_pair rfl (by simpa [breakLine, bracketed] using spaced)

theorem quiet_join {separator : Tex} {parts : List Tex} (between : Quiet separator)
    (h : ∀ p ∈ parts, Quiet p) : Quiet (Tex.join separator parts) := by
  cases parts with
  | nil => rfl
  | cons p parts =>
    refine join_induction (List.cons_ne_nil p parts) h fun q mem t quiet => ?_
    exact lacks_append (lacks_append (h q mem) between) quiet

theorem headed (plain : Smooth length.toList) (h : Composed length s bs) : Headed s bs := by
  induction h with
  | smooth h => exact .quiet h.quiet
  | append _ _ front back => exact front.append back
  | lines mem h =>
    exact .quiet (quiet_join (quiet_lineEnds plain _ mem) fun p memP => (h p memP).smooth.quiet)
  | block ht _ body => exact .block ht.quiet body

end Composed

end Vitae.Tex
