import Vitae.Json.Value
import Vitae.Proofs.Json.Written

namespace Vitae.Json

open Reader (isPlain_iff hexNumber?)

/-! ## Strings -/

def escapeDigits (n : Nat) : List Char :=
  List.replicate (4 - (Text.hexDigits n).length) '0' ++ Text.hexDigits n

theorem escapeDigits_spec :
    ∀ n < 0x20, (escapeDigits n).length = 4 ∧ hexNumber? (escapeDigits n) = some n := by
  decide

theorem denoted_escapedChar (c : Char) : Denoted (escapedChar c) c := by
  unfold escapedChar
  split
  case h_8 quote backslash _ _ _ _ _ =>
    split
    · case isTrue small =>
      obtain ⟨four, number⟩ := escapeDigits_spec c.toNat small
      have shown : Denoted (controlEscape c) (Char.ofNat c.toNat) := .numbered four number (.inl (by omega))
      rwa [Char.ofNat_toNat] at shown
    · case isFalse large =>
      exact .plain (isPlain_iff.mpr ⟨⟨quote, backslash⟩, Nat.not_lt.mp large⟩)
  all_goals exact .short rfl

def escapedLetter (c : Char) : Letter :=
  ⟨escapedChar c, c, denoted_escapedChar c⟩

theorem quoted_escaped (s : List Char) : quoted (s.map escapedLetter) = encodeString s := by
  rw [quoted, encodeString, List.flatMap_map]
  rfl

theorem chars_escaped (s : List Char) : (s.map escapedLetter).map Letter.char = s := by
  rw [List.map_map]
  exact List.map_id s

/-! ## Numbers -/

theorem digitChar_ne_zero : ∀ n < 10, 0 < n → n.digitChar ≠ '0' := by
  decide

theorem head?_toDigits {n : Nat} (positive : 0 < n) : (Nat.toDigits 10 n).head? ≠ some '0' := by
  induction n using Nat.strongRecOn with
  | _ n ih =>
    rcases Nat.lt_or_ge n 10 with small | large
    · rw [Nat.toDigits_of_lt_base small, List.head?_cons]
      exact mt Option.some.inj (digitChar_ne_zero n small positive)
    · have fewer := ih (n / 10) (Nat.div_lt_self positive (by decide)) (Nat.div_pos large (by decide))
      obtain ⟨c, ds, digits⟩ := List.exists_cons_of_ne_nil (Nat.toDigits_ne_nil (n := n / 10) (b := 10))
      rw [digits] at fewer
      rw [Nat.toDigits_of_base_le (by decide) large, digits]
      exact fewer

def Numeral.ofInt (n : Int) : Numeral where
  negative := decide (n < 0)
  whole := Nat.toDigits 10 n.natAbs
  fraction := []
  exponent := []
  whole_digits :=
    ⟨Nat.toDigits_ne_nil, fun _ mem => Nat.isDigit_of_mem_toDigits (by decide) (by decide) mem⟩
  whole_zero zero := by
    rcases Nat.eq_zero_or_pos n.natAbs with none | positive
    · rw [none]
      rfl
    · exact absurd zero (head?_toDigits positive)
  fraction_digits := List.forall_mem_nil _
  exponent_form := .inl rfl

theorem Numeral.text_ofInt (n : Int) : (Numeral.ofInt n).text = (toString n).toList := by
  have digits : (Numeral.ofInt n).fractionText ++ (Numeral.ofInt n).exponent = [] := rfl
  rw [Numeral.text, digits, List.append_nil]
  cases n with
  | ofNat m => exact Nat.toList_repr.symm
  | negSucc m =>
    have negative : (Numeral.ofInt (Int.negSucc m)).negative = true := decide_eq_true (Int.negSucc_lt_zero m)
    have text : (toString (Int.negSucc m)).toList = '-' :: (m + 1).repr.toList := by
      change ("-" ++ (m + 1).repr).toList = _
      rw [String.toList_append]
      rfl
    rw [text, Nat.toList_repr, negative]
    rfl

/-! ## Values -/

def Head.compact (s : List Char) : Head :=
  ⟨⟨.none, .none⟩, s.map escapedLetter, .none, .none⟩

theorem Head.chars_compact (s : List Char) : (Head.compact s).chars = s :=
  chars_escaped s

mutual

def written : Json → Written
  | .null => .null
  | .bool b => .bool b
  | .integer n => .number (.ofInt n)
  | .string s => .string (s.map escapedLetter)
  | .array items => .array (writtenItems items) .none
  | .object members => .object (writtenMembers members) .none

def writtenItems : List Json → List (Gaps × Written)
  | [] => []
  | j :: items => (⟨.none, .none⟩, written j) :: writtenItems items

def writtenMembers : List (List Char × Json) → List (Head × Written)
  | [] => []
  | (name, j) :: members => (.compact name, written j) :: writtenMembers members

end

theorem writtenItems_eq (items : List Json) : writtenItems items = items.map fun j => (⟨.none, .none⟩, written j) := by
  induction items with
  | nil => rfl
  | cons j items ih => rw [writtenItems, ih, List.map_cons]

theorem writtenMembers_eq (members : List (List Char × Json)) :
    writtenMembers members = members.map fun m => (.compact m.1, written m.2) := by
  induction members with
  | nil => rfl
  | cons m members ih => rw [writtenMembers, ih, List.map_cons]

mutual

theorem text_written : (j : Json) → (written j).text = j.compact
  | .null | .bool true | .bool false => rfl
  | .integer n => Numeral.text_ofInt n
  | .string s => quoted_escaped s
  | .array items => by
    have parts := itemsText_written items
    rw [written, Written.text, parts, compact]
    rfl
  | .object members => by
    have parts := membersText_written members
    rw [written, Written.text, parts, compact]
    rfl

theorem itemsText_written : (items : List Json) → itemsText true (writtenItems items) = compactItems items
  | [] => rfl
  | [j] => by
    rw [writtenItems, itemsText, text_written j]
    exact List.append_nil _
  | j :: next :: items => by
    have others := itemsText_written (next :: items)
    rw [compactItems, ← others, ← text_written j]
    · rfl
    · exact List.cons_ne_nil next items

theorem membersText_written : (members : List (List Char × Json)) →
    membersText true (writtenMembers members) = compactMembers members
  | [] => rfl
  | [(name, j)] => by
    rw [compactMembers, ← text_written j, ← quoted_escaped name]
    simp [writtenMembers, membersText, Head.text, Head.compact, Gaps.text, Gap.none]
  | (name, j) :: next :: members => by
    have others := membersText_written (next :: members)
    rw [compactMembers, ← others, ← text_written j, ← quoted_escaped name]
    · simp [writtenMembers, membersText, Head.text, Head.compact, Gaps.text, Gap.none]
    · exact List.cons_ne_nil next members

end

end Vitae.Json
