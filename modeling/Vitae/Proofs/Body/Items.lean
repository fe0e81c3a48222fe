import Vitae.Body.Bullets
import Vitae.Proofs.Tex.Absence
import Vitae.Proofs.Tex.Decoding
import Vitae.Proofs.Text.Trimming
import Mathlib.Data.List.Forall2

namespace Vitae.Body

open Text Tex

variable {content line text : List Char} {K : List (List Char)}

/-! ## The text of a line -/

/-- A bullet sign may stand right in front of the text, a dash only with a blank behind it. -/
inductive Gives : List Char → List Char → Prop where
  | sign {c : Char} {blanks text : List Char} (sign : c ∈ bulletSigns) (blank : allBlank blanks = true)
      (visible : ∀ d ∈ text.head?, isBlank d = false) : Gives (c :: (blanks ++ text)) text
  | dash {c : Char} {blanks text : List Char} (dash : c ∈ dashSigns) (apart : blanks ≠ [])
      (blank : allBlank blanks = true) (visible : ∀ d ∈ text.head?, isBlank d = false) :
      Gives (c :: (blanks ++ text)) text
  | plain {line : List Char} (unmarked : ∀ c s, line = c :: s → c ∉ bulletSigns ∧
      (c ∈ dashSigns → ∀ d ∈ s.head?, isBlank d = false)) : Gives line line

def isLoneSign (line : List Char) : Bool :=
  bulletSigns.any fun c => line == [c]

/-- The lines of the content give these texts, in order. A line of blanks gives none, nor does a bullet sign
alone. -/
def Listed (content : List Char) (K : List (List Char)) : Prop :=
  List.Forall₂ Gives (((trimmedLines content).filter (!·.isEmpty)).filter (!isLoneSign ·)) K

theorem dashed_iff {c : Char} {s : List Char} : (dashSigns.contains c && s.head?.any isBlank) = true ↔
    c ∈ dashSigns ∧ ∃ d ∈ s.head?, isBlank d = true := by
  rw [Bool.and_eq_true, List.contains_iff_mem, Option.any_eq_true]
  rfl

theorem gives_stripMarker (line : List Char) : Gives line (stripMarker line) := by
  cases line with
  | nil => exact .plain nofun
  | cons c s =>
    obtain ⟨blanks, whole, blank, visible⟩ := exists_trimStart s
    rw [stripMarker]
    split
    · case isTrue sign =>
      have gives := Gives.sign (List.contains_iff_mem.mp sign) blank visible
      rwa [← whole] at gives
    · case isFalse noSign =>
      split
      · case isTrue dashed =>
        obtain ⟨dash, d, first, blankD⟩ := dashed_iff.mp dashed
        -- the blank behind the dash is one of those that are passed over
        have apart : blanks ≠ [] := by
          rintro rfl
          rw [List.nil_append] at whole
          rw [← whole] at visible
          rw [visible d first] at blankD
          cases blankD
        have gives := Gives.dash dash apart blank visible
        rwa [← whole] at gives
      · case isFalse unmarked =>
        refine .plain fun c' s' same => ?_
        obtain ⟨rfl, rfl⟩ := List.cons.inj same
        refine ⟨fun sign => noSign (List.contains_iff_mem.mpr sign), fun dash d first => ?_⟩
        exact Bool.eq_false_iff.mpr fun blank => unmarked (dashed_iff.mpr ⟨dash, d, first, blank⟩)

theorem gives_iff : Gives line text ↔ stripMarker line = text := by
  refine ⟨fun gives => ?_, fun same => same ▸ gives_stripMarker line⟩
  cases gives with
  | sign sign blank visible =>
    rw [stripMarker, if_pos (List.contains_iff_mem.mpr sign), trimStart_blank_append blank,
      trimStart_of_visible visible]
  | @dash c blanks _ dash apart blank visible =>
    have signs : dashSigns.all (!bulletSigns.contains ·) = true := by decide
    have noSign : ¬bulletSigns.contains c = true := by simpa using List.all_eq_true.mp signs c dash
    obtain ⟨d, blanks, rfl⟩ := List.exists_cons_of_ne_nil apart
    have first : isBlank d = true := List.all_eq_true.mp blank d List.mem_cons_self
    have dashed := dashed_iff (s := d :: blanks ++ text).mpr ⟨dash, d, rfl, first⟩
    rw [stripMarker, if_neg noSign, if_pos dashed, trimStart_blank_append blank, trimStart_of_visible visible]
  | plain unmarked =>
    cases line with
    | nil => rfl
    | cons c s =>
      obtain ⟨noSign, noDash⟩ := unmarked c s rfl
      have noMark : ¬(dashSigns.contains c && s.head?.any isBlank) = true := by
        intro dashed
        obtain ⟨dash, d, first, blank⟩ := dashed_iff.mp dashed
        rw [noDash dash d first] at blank
        cases blank
      rw [stripMarker, if_neg fun sign => noSign (List.contains_iff_mem.mp sign), if_neg noMark]

theorem stripMarker_eq_nil_iff (h : IsTrimmedLine line) : stripMarker line = [] ↔ isLoneSign line = true := by
  have lone : isLoneSign line = true ↔ ∃ c ∈ bulletSigns, line = [c] := by
    simp [isLoneSign, List.any_eq_true]
  rw [lone]
  constructor
  · intro none
    have gives := gives_stripMarker line
    rw [none] at gives
    -- a trimmed line does not end in a blank, so that nothing stands behind its marker
    cases gives with
    | @sign c blanks _ sign blank _ =>
      obtain rfl := eq_nil_of_endsVisible (s := [c]) (by simpa using h.solid.last) blank
      exact ⟨c, sign, rfl⟩
    | @dash c blanks _ dash apart blank _ =>
      exact absurd (eq_nil_of_endsVisible (s := [c]) (by simpa using h.solid.last) blank) apart
    | plain => exact absurd rfl h.present
  · rintro ⟨c, sign, rfl⟩
    rw [stripMarker, if_pos (List.contains_iff_mem.mpr sign), trimStart_nil]

theorem bulletLines_eq (content : List Char) : bulletLines content =
    (((trimmedLines content).filter (!·.isEmpty)).filter (!isLoneSign ·)).map stripMarker := by
  rw [bulletLines, List.filter_map]
  refine congrArg _ (List.filter_congr fun line mem => ?_)
  have lone := stripMarker_eq_nil_iff (isTrimmedLine_of_mem mem)
  rw [← List.isEmpty_iff, ← Bool.eq_iff_iff] at lone
  rw [Function.comp_apply, lone]

theorem mem_of_mem_stripMarker {c : Char} (mem : c ∈ stripMarker line) : c ∈ line := by
  have gives := gives_stripMarker line
  generalize stripMarker line = text at gives mem
  cases gives with
  | sign | dash => exact List.mem_cons_of_mem _ (List.mem_append_right _ mem)
  | plain => exact mem

theorem not_mem_of_mem_bulletLines (mem : line ∈ bulletLines content) : '\n' ∉ line := by
  rw [bulletLines_eq] at mem
  obtain ⟨l, kept, rfl⟩ := List.mem_map.mp mem
  have whole := (isTrimmedLine_of_mem (List.mem_of_mem_filter kept)).whole
  exact fun feed => whole (mem_of_mem_stripMarker feed)

theorem listed_iff : Listed content K ↔ bulletLines content = K := by
  have gives : Gives = fun line text => stripMarker line = text := by
    funext line text
    exact propext gives_iff
  rw [bulletLines_eq, Listed, gives, ← List.forall₂_map_left_iff (R := Eq), List.forall₂_eq_eq_eq]

/-! ## Items read back -/

def readItem? (l : Tex) : Option (List Char) :=
  (stripPrefix? "  \\item ".toList l).map fun t => unescape ((stripPrefix? (braced []) t).getD t)

theorem stripPrefix?_guard_escape (s : List Char) : stripPrefix? (braced []) (escape s) = none := by
  rw [Option.eq_none_iff_forall_ne_some]
  intro r found
  have start := stripPrefix?_eq_some.mp found
  cases s with
  | nil => cases start
  | cons c s =>
    have piece : escape (c :: s) = escapeChar c ++ escape s := List.flatMap_cons
    rw [piece] at start
    generalize form : escapeChar c = w at start
    cases denotes_iff.mpr form.symm with
    | form mem =>
      obtain ⟨v, rfl⟩ : ∃ v, w = '\\' :: v := exists_backslash _ mem
      cases start
    | self plain =>
      obtain rfl := (List.cons.inj start).1
      exact plain (by decide)

theorem readItem?_bulletItem (line : List Char) : readItem? (bulletItem line) = some line := by
  unfold readItem? bulletItem item guardLineStart
  rw [stripPrefix?_append, Option.map_some]
  split
  · rw [stripPrefix?_append, Option.getD_some, unescape_escape]
  · rw [stripPrefix?_guard_escape, Option.getD_none, unescape_escape]

theorem not_mem_bulletItem (whole : '\n' ∉ line) : '\n' ∉ bulletItem line := by
  have escaped : '\n' ∉ escape line := not_mem_escape (by decide) whole
  unfold bulletItem item guardLineStart
  split <;> simp [braced, escaped]

theorem splitLines_itemize {items : List Tex} (whole : ∀ i ∈ items, '\n' ∉ i) (ne : items ≠ []) :
    splitLines (itemize items) = opening "itemize" :: (items ++ [closing "itemize"]) := by
  have list : itemize items = opening "itemize" ++ '\n' :: (joinLines items ++ '\n' :: closing "itemize") := by
    simp [itemize, ne, environment, join, joinLines, joinWith]
  rw [list, splitLines_append, splitLines_append, splitLines, split_of_not_mem (by decide), splitLines, joinLines,
    split_joinWith whole ne, splitLines, split_of_not_mem (by decide), List.singleton_append]

/-- A content lists one run of texts, and its bullet list has one line for each of them in order, from which
the text can be read back. -/
theorem bulletList_lines (content : List Char) :
    ∃ K, Listed content K ∧ (∀ other, Listed content other → other = K) ∧ (bulletList content = [] ↔ K = []) ∧
      (K ≠ [] → ∃ items, splitLines (bulletList content) =
        opening "itemize" :: (items ++ [closing "itemize"]) ∧ items.map readItem? = K.map some) ∧
      ∀ other, (trimmedLines other).filter (!·.isEmpty) = (trimmedLines content).filter (!·.isEmpty) →
        bulletList other = bulletList content := by
  have whole : ∀ line ∈ bulletLines content, '\n' ∉ line := fun line mem => not_mem_of_mem_bulletLines mem
  refine ⟨bulletLines content, listed_iff.mpr rfl, fun other listed => (listed_iff.mp listed).symm,
    bulletList_eq_nil_iff, fun present => ⟨(bulletLines content).map bulletItem, ?_, ?_⟩, fun other same => ?_⟩
  · refine splitLines_itemize (List.forall_mem_map.mpr fun line mem => not_mem_bulletItem (whole line mem)) ?_
    simpa using present
  · rw [List.map_map]
    exact List.map_congr_left fun line _ => readItem?_bulletItem line
  · rw [bulletList, bulletLines, same, ← bulletLines, ← bulletList]

theorem bulletList_lines_markers :
    let content := "• a\n-\tb\r\n-5\n ◦ \n••c\n[d]".toList
    let K := ["a".toList, "b".toList, "-5".toList, "•c".toList, "[d]".toList]
    Listed content K ∧ ∃ items, splitLines (bulletList content) =
      opening "itemize" :: (items ++ [closing "itemize"]) ∧ items.map readItem? = K.map some := by
  intro content K
  have listed : Listed content K := listed_iff.mpr (by decide)
  obtain ⟨L, -, unique, -, lines, -⟩ := bulletList_lines content
  obtain rfl := unique K listed
  exact ⟨listed, lines (List.cons_ne_nil _ _)⟩

end Vitae.Body
