import Vitae.Proofs.Json.Text

namespace Vitae.Json

open Reader (isSpace)

/-! ## Tokens -/

abbrev Gap := { s : List Char // ∀ c ∈ s, isSpace c = true }

def Gap.none : Gap :=
  ⟨[], List.forall_mem_nil _⟩

structure Numeral where
  negative : Bool
  whole : List Char
  fraction : List Char
  exponent : List Char
  whole_digits : whole ≠ [] ∧ ∀ c ∈ whole, c.isDigit = true
  whole_zero : whole.head? = some '0' → whole = ['0']
  fraction_digits : ∀ c ∈ fraction, c.isDigit = true
  exponent_form : exponent = [] ∨ ∃ e sign digits, exponent = e :: (sign ++ digits) ∧ (e = 'e' ∨ e = 'E') ∧
    sign ∈ [[], ['+'], ['-']] ∧ digits ≠ [] ∧ ∀ c ∈ digits, c.isDigit = true

def Numeral.fractionText (n : Numeral) : List Char :=
  if n.fraction = [] then [] else '.' :: n.fraction

def Numeral.text (n : Numeral) : List Char :=
  (if n.negative then ['-'] else []) ++ (n.whole ++ (n.fractionText ++ n.exponent))

/-! ## Values -/

/-- The blanks in front of a part and of the comma before it, which the first part does not have. -/
structure Gaps where
  comma : Gap
  part : Gap

def Gaps.text (first : Bool) (g : Gaps) : List Char :=
  (if first then [] else g.comma.1 ++ [',']) ++ g.part.1

structure Head extends Gaps where
  name : List Letter
  colon : Gap
  value : Gap

def Head.text (first : Bool) (h : Head) : List Char :=
  h.toGaps.text first ++ (quoted h.name ++ (h.colon.1 ++ ':' :: h.value.1))

def Head.chars (h : Head) : List Char :=
  h.name.map Letter.char

inductive Written where
  | null
  | bool (b : Bool)
  | number (n : Numeral)
  | string (s : List Letter)
  | array (items : List (Gaps × Written)) (last : Gap)
  | object (members : List (Head × Written)) (last : Gap)

mutual

def Written.text : Written → List Char
  | .null => "null".toList
  | .bool true => "true".toList
  | .bool false => "false".toList
  | .number n => n.text
  | .string s => quoted s
  | .array items last => '[' :: (itemsText true items ++ (last.1 ++ [']']))
  | .object members last => '\x7b' :: (membersText true members ++ (last.1 ++ ['\x7d']))

def itemsText : Bool → List (Gaps × Written) → List Char
  | _, [] => []
  | first, (g, v) :: items => g.text first ++ (v.text ++ itemsText false items)

def membersText : Bool → List (Head × Written) → List Char
  | _, [] => []
  | first, (h, v) :: members => h.text first ++ (v.text ++ membersText false members)

end

theorem Written.array_append (items : List (Gaps × Written)) (last : Gap) (k : List Char) :
    (Written.array items last).text ++ k = '[' :: (itemsText true items ++ (last.1 ++ ']' :: k)) := by
  simp [Written.text]

theorem Written.object_append (members : List (Head × Written)) (last : Gap) (k : List Char) :
    (Written.object members last).text ++ k = '\x7b' :: (membersText true members ++ (last.1 ++ '\x7d' :: k)) := by
  simp [Written.text]

theorem Gaps.text_append (g : Gaps) (k : List Char) : g.text false ++ k = g.comma.1 ++ ',' :: (g.part.1 ++ k) := by
  simp [Gaps.text]

theorem membersText_append (first : Bool) (h : Head) (v : Written) (members : List (Head × Written)) (k : List Char) :
    membersText first ((h, v) :: members) ++ k = h.toGaps.text first ++ (quoted h.name ++ (h.colon.1 ++ ':' ::
      (h.value.1 ++ (v.text ++ (membersText false members ++ k))))) := by
  simp [membersText, Head.text]

def Stops (k : List Char) : Prop :=
  ∀ c ∈ k.head?, isSpace c = true ∨ c ∈ [',', ']', '\x7d']

theorem Stops.gap {c : Char} (token : c ∈ [',', ']', '\x7d']) (g : Gap) (k : List Char) : Stops (g.1 ++ c :: k) := by
  obtain ⟨_ | ⟨b, g⟩, blank⟩ := g
  · rintro _ ⟨⟩
    exact .inr token
  · rintro _ ⟨⟩
    exact .inl (blank _ List.mem_cons_self)

theorem Stops.behind_items (items : List (Gaps × Written)) (last : Gap) (k : List Char) :
    Stops (itemsText false items ++ (last.1 ++ ']' :: k)) := by
  cases items with
  | nil => exact .gap (by decide) last k
  | cons item items =>
    obtain ⟨g, v⟩ := item
    simpa [itemsText, Gaps.text] using Stops.gap (c := ',') (by decide) g.comma _

theorem Stops.behind_members (members : List (Head × Written)) (last : Gap) (k : List Char) :
    Stops (membersText false members ++ (last.1 ++ '\x7d' :: k)) := by
  cases members with
  | nil => exact .gap (by decide) last k
  | cons member members =>
    obtain ⟨h, v⟩ := member
    simpa [membersText, Head.text, Gaps.text] using Stops.gap (c := ',') (by decide) h.comma _

namespace Reader

variable {c : Char}

/-! ## Reading tokens -/

theorem Reads.gap (g : Gap) (visible : isSpace c = false) (s : List Char) :
    Reads Reader.nextPart? (g.1 ++ c :: s) (some c) (c :: s) := by
  intro p
  obtain ⟨q, skipped⟩ := skipWhile_eq isSpace (g.1 ++ c :: s) p
  rw [List.dropWhile_append_of_pos g.2, List.dropWhile_cons_of_neg (by simp [visible])] at skipped
  exact ⟨q, by rw [Reader.nextPart?, skipped]; rfl⟩

theorem Reads.colon (g : Gap) (s : List Char) : Reads Reader.colon (g.1 ++ ':' :: s) () s :=
  (Reads.gap g rfl s).bind (.advance ':' s)

theorem Reads.memberName (h : Head) (k : List Char) : Reads Reader.name (quoted h.name ++ k) h.chars k := by
  rw [quoted_append]
  exact (Reads.advance '"' _).bind (.stringBody h.name k)

theorem Reads.ident (w k : List Char) : Reads (Reader.ident w) (w ++ k) () k := by
  induction w with
  | nil => exact .pure () k
  | cons c w ih =>
    refine (Reads.peek? _).bind ?_
    dsimp only [List.cons_append, List.head?_cons]
    rw [if_pos rfl]
    exact (Reads.advance c _).bind ih

end Reader

/-! ## How a value starts -/

structure Written.StartsWith (v : Written) (c : Char) : Prop where
  visible : isSpace c = false
  part : c ∉ [',', ']', '\x7d']
  string : c = '"' → ∃ s, v = .string s
  array : c = '[' → ∃ items last, v = .array items last
  object : c = '\x7b' → ∃ members last, v = .object members last
  null : c = 'n' → v = .null

theorem Written.StartsWith.not_closing {v : Written} {c : Char} (h : v.StartsWith c) : c ≠ ']' :=
  fun same => h.part (by simp [same])

theorem isSpace_of_isDigit {c : Char} (digit : c.isDigit = true) : isSpace c = false := by
  rw [← Bool.not_eq_true]
  intro blank
  simp only [isSpace, Bool.or_eq_true, decide_eq_true_eq] at blank
  rcases blank with ((rfl | rfl) | rfl) | rfl <;> cases digit

theorem Numeral.startsWith (n : Numeral) : ∃ c t, n.text = c :: t ∧ (Written.number n).StartsWith c := by
  rw [Numeral.text]
  split
  · exact ⟨'-', _, rfl, by constructor <;> simp [isSpace]⟩
  · obtain ⟨visible, all⟩ := n.whole_digits
    obtain ⟨c, ds, whole⟩ := List.exists_cons_of_ne_nil visible
    rw [whole] at all ⊢
    have digit := all c List.mem_cons_self
    refine ⟨c, _, rfl, isSpace_of_isDigit digit, fun mem => ?_, ?_, ?_, ?_, ?_⟩
    · simp only [List.mem_cons, List.not_mem_nil, or_false] at mem
      rcases mem with rfl | rfl | rfl <;> cases digit
    all_goals
      rintro rfl
      cases digit

theorem Written.exists_start (v : Written) : ∃ c t, v.text = c :: t ∧ v.StartsWith c := by
  cases v with
  | null => exact ⟨'n', _, rfl, by constructor <;> simp [isSpace]⟩
  | bool b =>
    cases b with
    | true => exact ⟨'t', _, rfl, by constructor <;> simp [isSpace]⟩
    | false => exact ⟨'f', _, rfl, by constructor <;> simp [isSpace]⟩
  | number n => exact n.startsWith
  | string s => exact ⟨'"', _, rfl, by constructor <;> simp [isSpace]⟩
  | array items last => exact ⟨'[', _, rfl, by constructor <;> simp [isSpace]⟩
  | object members last => exact ⟨'\x7b', _, rfl, by constructor <;> simp [isSpace]⟩

end Vitae.Json
