import Vitae.Proofs.Tex.Nesting
import Vitae.Proofs.Tex.Escaping
import Mathlib.Logic.Relation

/-!
# Reading a source

A reading goes through a source from left to right, one character or one command at a time, and keeps what
is open. `Step` has a rule for each thing that a layout may write and no rule for anything else, so a text
that can be read through is free of stray markup; `Markup` says that of a part of a source, whatever stands
behind it.
-/

namespace Vitae.Tex

/-! ## The words of a source -/

def structuralWords : List String :=
  ["begin", "end", "item", "href"]

def isCommandName (name : String) : Bool :=
  name != "" && name.toList.all Char.isAlpha && !structuralWords.contains name

def escapeWords : List String :=
  ["textbackslash", "textasciitilde", "textasciicircum"]

def sharedWords : List String :=
  ["section", "faUser", "faFutbol", "faBriefcase", "faGraduationCap", "faStar", "faTools",
    "faAddressBook", "faUserCircle", "faLanguage", "faAddressCard", "faBookmark", "faPhone",
    "faEnvelope", "faMapMarker", "faGlobe", "faLink", "textbf", "small", "hfill", "linewidth", "vspace"]

structure Dialect where
  words : List String
  names : words.all isCommandName = true
  guarded : Prop

def Dialect.commands (g : Dialect) : List String :=
  escapeWords ++ sharedWords ++ g.words

theorem Dialect.command {g : Dialect} {w : String} (h : w ∈ g.commands) :
    w ≠ "" ∧ w.toList.all Char.isAlpha = true ∧ ∀ s ∈ structuralWords, w ≠ s := by
  have name : isCommandName w = true := by
    simp only [commands, List.mem_append] at h
    obtain (h | h) | h := h
    · exact List.all_eq_true.mp (by decide : escapeWords.all isCommandName = true) w h
    · exact List.all_eq_true.mp (by decide : sharedWords.all isCommandName = true) w h
    · exact List.all_eq_true.mp g.names w h
  simp only [isCommandName, Bool.and_eq_true, bne_iff_ne, Bool.not_eq_true',
    List.contains_eq_mem, decide_eq_false_iff_not] at name
  exact ⟨name.1.1, name.1.2, fun s mem eq => name.2 (eq ▸ mem)⟩

def blockNames : List String :=
  ["center", "itemize", "minipage", "tikzpicture"]

def characterSymbols : List Char :=
  [' ', '&', '%', '#', '_', '$', '{', '}']

def isPlain (c : Char) : Bool :=
  !('\\' :: '{' :: '}' :: activeChars).contains c

theorem isPlain_iff {c : Char} :
    isPlain c = true ↔ c ≠ '\\' ∧ c ≠ '{' ∧ c ≠ '}' ∧ c ∉ activeChars := by
  simp [isPlain]

/-! ## Steps and runs -/

structure Place where
  frames : List Frame
  rest : Tex

inductive Step (g : Dialect) : Place → Place → Prop where
  | plain {fs : List Frame} {c : Char} {t : Tex} (self : isPlain c = true) :
      Step g ⟨fs, c :: t⟩ ⟨fs, t⟩
  | symbol {fs : List Frame} {c : Char} {t : Tex} (mem : c ∈ characterSymbols) :
      Step g ⟨fs, '\\' :: c :: t⟩ ⟨fs, t⟩
  | spacedBreak {fs : List Frame} {t : Tex} : Step g ⟨fs, '\\' :: '\\' :: '[' :: t⟩ ⟨fs, '[' :: t⟩
  | lineBreak {fs : List Frame} {t : Tex} (guard : g.guarded → startsOption t = false) :
      Step g ⟨fs, '\\' :: '\\' :: '\n' :: t⟩ ⟨fs, t⟩
  | word {fs : List Frame} {w : String} {t : Tex} (mem : w ∈ g.commands)
      (stop : startsLetter t = false) : Step g ⟨fs, control w ++ t⟩ ⟨fs, t⟩
  | item {fs : List Frame} {t : Tex} (stop : startsLetter t = false)
      (guard : startsOption t = false) : Step g ⟨fs, control "item" ++ t⟩ ⟨fs, t⟩
  | openGroup {fs : List Frame} {t : Tex} : Step g ⟨fs, '{' :: t⟩ ⟨.group :: fs, t⟩
  | closeGroup {fs : List Frame} {t : Tex} : Step g ⟨.group :: fs, '}' :: t⟩ ⟨fs, t⟩
  | openBlock {fs : List Frame} {n : String} {t : Tex} (mem : n ∈ blockNames) :
      Step g ⟨fs, opening n ++ t⟩ ⟨.environment n :: fs, t⟩
  | openColumns {fs : List Frame} {n : Tex} {t : Tex} (digits : n.all Char.isDigit = true)
      (guard : startsOption t = false) :
      Step g ⟨fs, opening "multicols" ++ (braced n ++ t)⟩ ⟨.environment "multicols" :: fs, t⟩
  | close {fs : List Frame} {n : String} {t : Tex} (mem : n ∈ "multicols" :: blockNames) :
      Step g ⟨.environment n :: fs, closing n ++ t⟩ ⟨fs, t⟩
  | target {fs : List Frame} {u t : Tex} (hard : Target.Hardened u) :
      Step g ⟨fs, linkStart ++ (u ++ '}' :: '{' :: t)⟩ ⟨fs, '{' :: t⟩

abbrev Reads (g : Dialect) : Place → Place → Prop :=
  Relation.ReflTransGen (Step g)

end Vitae.Tex
