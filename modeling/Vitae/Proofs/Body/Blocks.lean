import Vitae.Proofs.Body.Records
import Vitae.Proofs.Tex.Tokens
import Vitae.Proofs.Reading.Text

namespace Vitae

open Text Tex

namespace Body

variable {s t : Tex} {line name : List Char} {rest : List (List Char)} {r : Record} {blocks : List Tex} {k : Token}

/-! ## How a record is set -/

/-- How a line below the name of a record is set. The case of the letters in front of its colon does not
matter. -/
inductive SetsLine : List Char → Tex → Prop where
  | phone {sign number : List Char} (h : sign.map Char.toLower = "phone:".toList) :
      SetsLine (sign ++ number) ("\\faPhone\\ " ++ escape (trim number))
  | mail {sign address : List Char} {target : Tex} (h : sign.map Char.toLower = "email:".toList)
      (valid : Target.mailto? address = some target) :
      SetsLine (sign ++ address)
        ("\\faEnvelope\\ " ++ (control "href" ++ braced target ++ braced (escape (trim address))))
  | noMail {sign address : List Char} (h : sign.map Char.toLower = "email:".toList)
      (none : Target.mailto? address = none) : SetsLine (sign ++ address) "\\faEnvelope"
  | other {line : List Char} (h : ∀ sign rest, line = sign ++ rest →
      sign.map Char.toLower ≠ "phone:".toList ∧ sign.map Char.toLower ≠ "email:".toList) :
      SetsLine line ((if ReadsOption (escape line) then braced [] else []) ++ escape line)

structure SetsRecord (r : Record) (block : Tex) : Prop where
  lines : ∃ name rest written, r = name :: rest ∧ List.Forall₂ SetsLine rest written ∧
    block = join "\\\\\n" (command "textbf" (escape name) :: written)
  breaks : (tokens block).count (.symbol '\\') = r.length - 1
  height : (splitLines block).length = r.length
  visible : ∀ l ∈ splitLines block, allBlank l = false

def inHalfLine (block : Tex) : Tex :=
  opening "minipage" ++ bracketed "t" ++ braced ("0.48" ++ control "linewidth") ++ "\n" ++ control "small" ++
    "\n" ++ block ++ "\n" ++ closing "minipage"

def pairedRows (blocks : List Tex) : List Tex :=
  (List.range (blocks.length / 2)).map fun i =>
    inHalfLine (blocks.getD (2 * i) []) ++ "\n" ++ control "hfill" ++ "\n" ++
      inHalfLine (blocks.getD (2 * i + 1) [])

def leftOver (blocks : List Tex) : List Tex :=
  if blocks.length % 2 = 1 then [braced (control "small" ++ "\n" ++ blocks.getLastD [] ++ "\n")] else []

theorem halfWidth_eq_inHalfLine (block : Tex) : halfWidth block = inHalfLine block := by
  simp [halfWidth, inHalfLine, environment]

theorem pairedRows_cons_cons (l r : Tex) (blocks : List Tex) : pairedRows (l :: r :: blocks) =
    (inHalfLine l ++ "\n" ++ control "hfill" ++ "\n" ++ inHalfLine r) :: pairedRows blocks := by
  have half : (l :: r :: blocks).length / 2 = blocks.length / 2 + 1 := Nat.add_div_right _ Nat.two_pos
  rw [pairedRows, half, List.range_succ_eq_map, List.map_cons, List.map_map, pairedRows]
  rfl

theorem leftOver_cons_cons (l r : Tex) (blocks : List Tex) : leftOver (l :: r :: blocks) = leftOver blocks := by
  have odd : (l :: r :: blocks).length % 2 = blocks.length % 2 := Nat.add_mod_right _ 2
  rw [leftOver, odd, leftOver]
  cases blocks <;> rfl

theorem rows_eq (rs : List Record) :
    rows rs = pairedRows (rs.map recordBlock) ++ leftOver (rs.map recordBlock) := by
  fun_induction rows rs with
  | case1 => rfl
  | case2 r => simp [pairedRows, leftOver]
  | case3 l r rs ih =>
    rw [ih, List.map_cons, List.map_cons, pairedRows_cons_cons, leftOver_cons_cons, List.cons_append,
      halfWidth_eq_inHalfLine, halfWidth_eq_inHalfLine]

theorem setsLine_contactLine (line : List Char) : SetsLine line (contactLine line) := by
  unfold contactLine
  split
  · case h_1 number found =>
    obtain ⟨sign, rfl, same⟩ := stripPrefixNoCase?_eq_some.mp found
    exact .phone same
  · case h_2 noPhone =>
    split
    · case h_1 address found =>
      obtain ⟨sign, rfl, same⟩ := stripPrefixNoCase?_eq_some.mp found
      split
      · case h_1 target valid => exact .mail same valid
      · case h_2 none => exact .noMail same none
    · case h_2 noMail =>
      rw [guardLineStart_eq]
      refine .other fun sign rest whole => ⟨?_, ?_⟩
      · exact not_start_of_stripPrefixNoCase? noPhone whole
      · exact not_start_of_stripPrefixNoCase? noMail whole

/-! ## Lines of a block -/

def columnTokens : List Token :=
  [.word "begin", .word "hfill"]

def layoutTokens : List Token :=
  .symbol '\\' :: columnTokens

theorem reserved_layoutTokens : ∀ k ∈ layoutTokens, Reserved k.spelling := by
  have starts : ∀ k ∈ layoutTokens, k.spelling.head? = some '\\' := by decide
  have forms : ∀ k ∈ layoutTokens, ∀ f ∈ escapedForms, lacks k.spelling f.2 = true := by decide
  exact fun k mem => ⟨starts k mem, forms k mem⟩

/-- A part of a line, which adds nothing to the layout and in which nothing breaks off. -/
structure Inline (s : Tex) : Prop where
  whole : '\n' ∉ s
  ended : Ended s
  plain : ∀ k ∈ layoutTokens, lacks k.spelling s = true

instance : DecidablePred Inline := fun s =>
  decidable_of_iff ('\n' ∉ s ∧ Ended s ∧ ∀ k ∈ layoutTokens, lacks k.spelling s = true)
    ⟨fun h => ⟨h.1, h.2.1, h.2.2⟩, fun h => ⟨h.whole, h.ended, h.plain⟩⟩

namespace Inline

theorem append (hs : Inline s) (ht : Inline t) : Inline (s ++ t) :=
  ⟨fun mem => (List.mem_append.mp mem).elim hs.whole ht.whole, hs.ended.append ht.ended,
    fun k mem => lacks_append (hs.plain k mem) (ht.plain k mem)⟩

theorem escape (whole : '\n' ∉ line) : Inline (escape line) :=
  ⟨not_mem_escape (by decide) whole, ended_escape line, fun k mem => (reserved_layoutTokens k mem).lacks_escape line⟩

theorem hardened (h : Target.Hardened s) : Inline s := by
  refine ⟨fun feed => ?_, h.ended, fun k mem => (reserved_layoutTokens k mem).lacks_hardened h⟩
  exact absurd (h.visible _ feed).1 (by decide)

theorem braced (h : Inline s) : Inline (braced s) :=
  append (s := ['{']) (by decide) (h.append (by decide))

theorem guardLineStart (h : Inline s) : Inline (guardLineStart s) := by
  unfold Tex.guardLineStart
  split
  · exact append (by decide) h
  · exact h

end Inline

theorem inline_contactLine (whole : '\n' ∉ line) : Inline (contactLine line) := by
  have trimmed {a b : List Char} (cut : line = a ++ b) : '\n' ∉ trim b := fun feed =>
    whole (cut ▸ List.mem_append_right a (mem_of_mem_trim feed))
  have sets := setsLine_contactLine line
  generalize cut : line = l, contactLine line = s at sets
  cases sets with
  | phone => exact .append (by decide) (.escape (trimmed cut))
  | mail _ valid =>
    have link := (Inline.hardened (Target.hardened_mailto? valid)).braced
    exact .append (by decide) (.append (.append (by decide) link) (Inline.escape (trimmed cut)).braced)
  | noMail => decide
  | other =>
    rw [← guardLineStart_eq]
    exact (Inline.escape (cut ▸ whole)).guardLineStart

theorem allBlank_contactLine (h : IsTrimmedLine line) : allBlank (contactLine line) = false := by
  have sets := setsLine_contactLine line
  generalize cut : line = l, contactLine line = s at sets
  cases sets with
  | phone | mail | noMail => rfl
  | other =>
    have visible := allBlank_of_solid (solid_escape h.solid) (by simpa using h.present)
    rw [← cut]
    split
    · rfl
    · exact visible

/-! ## Blocks -/

theorem inline_lines (h : IsRecord (name :: rest)) :
    ∀ p ∈ command "textbf" (escape name) :: rest.map contactLine, Inline p ∧ allBlank p = false := by
  have lines := List.forall_mem_cons.mp h.lines
  rw [List.forall_mem_cons, List.forall_mem_map]
  refine ⟨⟨.append (by decide) (Inline.escape lines.1.whole).braced, rfl⟩, fun line mem => ?_⟩
  exact ⟨inline_contactLine (lines.2 line mem).whole, allBlank_contactLine (lines.2 line mem)⟩

theorem splitLines_join {parts : List Tex} (ne : parts ≠ []) (inline : ∀ p ∈ parts, Inline p) :
    (splitLines (join "\\\\\n" parts)).length = parts.length ∧
      ∀ l ∈ splitLines (join "\\\\\n" parts), ∃ p ∈ parts, p <+: l := by
  induction parts with
  | nil => exact absurd rfl ne
  | cons p parts ih =>
    rw [List.forall_mem_cons] at inline
    cases parts with
    | nil =>
      rw [join_singleton, splitLines, split_of_not_mem inline.1.whole]
      exact ⟨rfl, List.forall_mem_singleton.mpr ⟨p, List.mem_singleton_self p, List.prefix_refl p⟩⟩
    | cons q parts =>
      obtain ⟨height, starts⟩ := ih (List.cons_ne_nil q parts) inline.2
      -- the line feed of the first line break ends the first line
      have ended : '\n' ∉ p ++ ['\\', '\\'] := by simpa using inline.1.whole
      have cut : splitLines (join "\\\\\n" (p :: q :: parts)) =
          (p ++ ['\\', '\\']) :: splitLines (join "\\\\\n" (q :: parts)) := by
        rw [splitLines, splitLines, ← split_append ended, join_cons_cons]
        simp
      rw [cut, List.forall_mem_cons]
      refine ⟨congrArg (· + 1) height, ⟨p, List.mem_cons_self, List.prefix_append p _⟩, fun l mem => ?_⟩
      obtain ⟨part, memPart, start⟩ := starts l mem
      exact ⟨part, List.mem_cons_of_mem p memPart, start⟩

theorem count_tokens_recordBlock (h : IsRecord r) (mem : k ∈ layoutTokens) :
    (tokens (recordBlock r)).count k = (r.length - 1) * (tokens "\\\\\n").count k := by
  cases r with
  | nil => exact absurd rfl h.present
  | cons name rest =>
    have lines := inline_lines h
    have plain : ((command "textbf" (escape name) :: rest.map contactLine).flatMap tokens).count k = 0 := by
      refine List.count_eq_zero.mpr fun memTokens => ?_
      obtain ⟨p, memPart, memToken⟩ := List.mem_flatMap.mp memTokens
      exact not_mem_tokens ((lines p memPart).1.plain k mem) memToken
    rw [recordBlock, count_tokens_join (by decide) fun p memPart => (lines p memPart).1.ended, plain]
    simp

theorem tokens_lineBreak : tokens "\\\\\n" = [.symbol '\\', .char '\n'] := by
  simp [tokens, lex_symbol, lex_char]

theorem setsRecord_recordBlock (h : IsRecord r) : SetsRecord r (recordBlock r) := by
  have breaks := count_tokens_recordBlock h (k := .symbol '\\') (by decide)
  cases r with
  | nil => exact absurd rfl h.present
  | cons name rest =>
    have lines := inline_lines h
    obtain ⟨height, starts⟩ := splitLines_join (List.cons_ne_nil _ _) fun p mem => (lines p mem).1
    refine ⟨⟨name, rest, rest.map contactLine, rfl, ?_, rfl⟩, ?_, ?_, fun l mem => ?_⟩
    · rw [List.forall₂_map_right_iff, List.forall₂_same]
      exact fun line _ => setsLine_contactLine line
    · rw [breaks, tokens_lineBreak]
      simp
    · rw [recordBlock, height]
      simp
    · obtain ⟨p, memPart, t, rfl⟩ := starts l mem
      have visible := (lines p memPart).2
      rw [allBlank] at visible ⊢
      rw [List.all_append, visible, Bool.false_and]

/-! ## Rows -/

theorem ended_recordBlock (h : IsRecord r) : Ended (recordBlock r) := by
  cases r with
  | nil => exact absurd rfl h.present
  | cons name rest => exact Separator.ended_join (by decide) fun p mem => (inline_lines h p mem).1.ended

theorem count_column_recordBlock (h : IsRecord r) (mem : k ∈ columnTokens) : (tokens (recordBlock r)).count k = 0 := by
  have other : ∀ k ∈ columnTokens, [Token.symbol '\\', .char '\n'].count k = 0 := by decide
  rw [count_tokens_recordBlock h (List.mem_cons_of_mem _ mem), tokens_lineBreak, other k mem, Nat.mul_zero]

def halfFront : Tex :=
  braced "minipage" ++ (bracketed "t" ++ braced ("0.48" ++ control "linewidth")) ++ "\n" ++ (control "small" ++ "\n")

theorem halfWidth_eq (block : Tex) :
    halfWidth block = (control "begin" ++ halfFront) ++ (block ++ ("\n" ++ closing "minipage")) := by
  simp [halfFront, halfWidth, environment, opening, command]

theorem ended_halfWidth (block : Tex) : Ended (halfWidth block) := by
  have close : Ended (closing "minipage") := by decide
  exact close.behind (by decide) _

theorem count_column_halfWidth (h : IsRecord r) (mem : k ∈ columnTokens) :
    (tokens (halfWidth (recordBlock r))).count k = [Token.word "begin"].count k := by
  have lackFront : ∀ k ∈ columnTokens, lacks k.spelling halfFront = true := by decide
  have lackEnd : ∀ k ∈ columnTokens, lacks k.spelling ("\n" ++ closing "minipage") = true := by decide
  rw [halfWidth_eq, count_tokens_around (by decide) (by decide) (ended_recordBlock h), count_column_recordBlock h mem,
    count_tokens_of_lacks (lackEnd k mem), tokens_control_append (by decide) (by decide) rfl, List.count_cons,
    count_tokens_of_lacks (lackFront k mem), List.count_cons, List.count_nil, Nat.add_zero]

theorem count_column_beside {l : Record} (hl : IsRecord l) (hr : IsRecord r) (mem : k ∈ columnTokens) :
    (tokens (halfWidth (recordBlock l) ++ "\n" ++ control "hfill" ++ "\n" ++ halfWidth (recordBlock r))).count k =
      [Token.word "begin", .word "hfill", .word "begin"].count k := by
  have whole : halfWidth (recordBlock l) ++ "\n" ++ control "hfill" ++ "\n" ++ halfWidth (recordBlock r) =
      halfWidth (recordBlock l) ++ (('\n' :: (control "hfill" ++ "\n")) ++ halfWidth (recordBlock r)) := by
    simp
  have fill : tokens ('\n' :: (control "hfill" ++ "\n")) = [.char '\n', .word "hfill", .char '\n'] := by
    have feed : tokens "\n" = [.char '\n'] := by simp [tokens, lex_char]
    rw [tokens_cons (by decide), tokens_control_append (by decide) (by decide) rfl, feed]
  have separator : Separator ('\n' :: (control "hfill" ++ "\n")) := by decide
  have counted : ∀ k ∈ columnTokens, [Token.word "begin"].count k +
      ([Token.char '\n', .word "hfill", .char '\n'].count k + [Token.word "begin"].count k) =
        [Token.word "begin", .word "hfill", .word "begin"].count k := by
    decide
  rw [whole, count_tokens_append (separator.behind (ended_halfWidth _) _), count_tokens_append (separator.apart _),
    count_column_halfWidth hl mem, count_column_halfWidth hr mem, fill, counted k mem]

theorem count_column_below (h : IsRecord r) (mem : k ∈ columnTokens) :
    (tokens (braced (control "small" ++ "\n" ++ recordBlock r ++ "\n"))).count k = 0 := by
  have whole : braced (control "small" ++ "\n" ++ recordBlock r ++ "\n") =
      ('{' :: (control "small" ++ "\n")) ++ (recordBlock r ++ "\n\x7d") := by
    simp [braced]
  have lackFront : ∀ k ∈ columnTokens, lacks k.spelling ('{' :: (control "small" ++ "\n")) = true := by decide
  have lackEnd : ∀ k ∈ columnTokens, lacks k.spelling "\n\x7d" = true := by decide
  rw [whole, count_tokens_around (by decide) (by decide) (ended_recordBlock h), count_column_recordBlock h mem,
    count_tokens_of_lacks (lackEnd k mem), count_tokens_of_lacks (lackFront k mem)]

theorem count_column_rows {rs : List Record} (h : ∀ r ∈ rs, IsRecord r) (mem : k ∈ columnTokens) :
    ((rows rs).flatMap tokens).count k =
      [Token.word "begin", .word "hfill", .word "begin"].count k * (rs.length / 2) := by
  fun_induction rows rs with
  | case1 => simp
  | case2 r =>
    rw [List.length_singleton, List.flatMap_singleton, count_column_below (h r List.mem_cons_self) mem,
      Nat.div_eq_of_lt Nat.one_lt_two, Nat.mul_zero]
  | case3 l r rs ih =>
    rw [List.forall_mem_cons, List.forall_mem_cons] at h
    have half : (l :: r :: rs).length / 2 = rs.length / 2 + 1 := Nat.add_div_right _ Nat.two_pos
    rw [List.flatMap_cons, List.count_append, ih h.2.2, count_column_beside h.1 h.2.1 mem, half, Nat.mul_succ,
      Nat.add_comm]

theorem ended_row (rs : List Record) : ∀ row ∈ rows rs, row ≠ [] ∧ Ended row := by
  fun_induction rows rs with
  | case1 => exact List.forall_mem_nil _
  | case2 r => exact List.forall_mem_singleton.mpr ⟨braced_ne_nil _, ended_braced _⟩
  | case3 l r rs ih =>
    refine List.forall_mem_cons.mpr ⟨⟨?_, ?_⟩, ih⟩
    · exact List.append_ne_nil_of_right_ne_nil _ (environment_ne_nil _ _ _)
    · exact (ended_halfWidth _).behind (environment_ne_nil _ _ _) _

theorem count_column_referenceBlocks (text : List Char) (mem : k ∈ columnTokens) :
    (tokens (referenceBlocks text)).count k =
      [Token.word "begin", .word "hfill", .word "begin"].count k * ((records text).length / 2) := by
  have filled : ∀ r ∈ records text, IsRecord r := isRecord_of_mem_records
  have lackGap : ∀ k ∈ columnTokens, lacks k.spelling rowGap = true := by decide
  rw [referenceBlocks, count_tokens_join (by decide) fun row mem => (ended_row _ row mem).2,
    count_column_rows filled mem, count_tokens_of_lacks (lackGap k mem), Nat.mul_zero, Nat.add_zero]

theorem referenceBlocks_eq_nil_iff {text : List Char} : referenceBlocks text = [] ↔ records text = [] := by
  refine ⟨fun empty => ?_, fun none => by rw [referenceBlocks, none, rows]; rfl⟩
  by_contra present
  have placed : rows (records text) ≠ [] := by
    cases cut : records text with
    | nil => exact absurd cut present
    | cons r rs => cases rs <;> exact List.cons_ne_nil _ _
  exact join_ne_nil (fun row mem => (ended_row _ row mem).1) placed empty

/-- Each record of a text has one block, and the blocks stand in rows of two. -/
theorem referenceBlocks_placed (text : List Char) :
    (∃ blocks, List.Forall₂ SetsRecord (records text) blocks ∧
      referenceBlocks text =
        join ("\n\n" ++ command "vspace" "6pt" ++ "\n\n") (pairedRows blocks ++ leftOver blocks)) ∧
    (referenceBlocks text = [] ↔ records text = []) ∧
    (tokens (referenceBlocks text)).count (.word "begin") = 2 * ((records text).length / 2) ∧
    (tokens (referenceBlocks text)).count (.word "hfill") = (records text).length / 2 := by
  refine ⟨⟨(records text).map recordBlock, ?_, ?_⟩, referenceBlocks_eq_nil_iff, ?_, ?_⟩
  · rw [List.forall₂_map_right_iff, List.forall₂_same]
    exact fun r mem => setsRecord_recordBlock (isRecord_of_mem_records r mem)
  · rw [referenceBlocks, rows_eq, rowGap]
  · exact count_column_referenceBlocks text (by decide)
  · exact (count_column_referenceBlocks text (by decide)).trans (Nat.one_mul _)

end Body
end Vitae
