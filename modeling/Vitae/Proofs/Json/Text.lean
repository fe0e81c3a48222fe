import Vitae.Json.Read

namespace Vitae.Json

open Reader (isPlain shortEscape? hexNumber?)

/-! ## Letters -/

/-- What may be written for a character of a string: itself, its short escape, its number, or the two numbers of a
character that does not fit into one. -/
inductive Denoted : List Char → Char → Prop where
  | plain {c : Char} (self : isPlain c = true) : Denoted [c] c
  | short {d c : Char} (known : shortEscape? d = some c) : Denoted ['\\', d] c
  | numbered {digits : List Char} {n : Nat} (four : digits.length = 4) (number : hexNumber? digits = some n)
      (alone : n < 0xD800 ∨ 0xDFFF < n) : Denoted ('\\' :: 'u' :: digits) (Char.ofNat n)
  | paired {high low : List Char} {n m : Nat} (fourHigh : high.length = 4) (numberHigh : hexNumber? high = some n)
      (isHigh : 0xD800 ≤ n ∧ n ≤ 0xDBFF) (fourLow : low.length = 4) (numberLow : hexNumber? low = some m)
      (isLow : 0xDC00 ≤ m ∧ m ≤ 0xDFFF) :
      Denoted ('\\' :: 'u' :: (high ++ '\\' :: 'u' :: low))
        (Char.ofNat ((n - 0xD800) * 0x400 + (m - 0xDC00) + 0x10000))

structure Letter where
  text : List Char
  char : Char
  denoted : Denoted text char

def quoted (s : List Letter) : List Char :=
  '"' :: (s.flatMap Letter.text ++ ['"'])

theorem quoted_append (s : List Letter) (k : List Char) :
    quoted s ++ k = '"' :: (s.flatMap Letter.text ++ '"' :: k) := by
  rw [quoted, List.cons_append, List.append_assoc, List.singleton_append]

theorem Letter.text_ne_nil (u : Letter) : u.text ≠ [] := by
  obtain ⟨text, char, denoted⟩ := u
  cases denoted <;> exact List.cons_ne_nil _ _

namespace Reader

variable {α β : Type} {r : Reader α} {f : α → Reader β} {s t k : List Char} {a : α} {b : β} {c : Char}

/-! ## Steps of a reader -/

/-- From `s`, the reader gets `a` and leaves `k`. -/
def Reads (r : Reader α) (s : List Char) (a : α) (k : List Char) : Prop :=
  ∀ p, ∃ q, r ⟨s, p⟩ = .ok (a, ⟨k, q⟩)

theorem Reads.pure (a : α) (s : List Char) : Reads (pure a) s a s :=
  fun p => ⟨p, rfl⟩

theorem Reads.bind (first : Reads r s a t) (next : Reads (f a) t b k) : Reads (r >>= f) s b k := by
  intro p
  obtain ⟨q, first⟩ := first p
  obtain ⟨q', next⟩ := next q
  refine ⟨q', ?_⟩
  change StateT.bind r f ⟨s, p⟩ = _
  rw [StateT.bind, first]
  exact next

theorem Reads.advance (c : Char) (s : List Char) : Reads advance (c :: s) () s :=
  fun p => ⟨p.after c, rfl⟩

theorem Reads.peek? (s : List Char) : Reads peek? s s.head? s :=
  fun p => ⟨p, rfl⟩

theorem Reads.remaining (s : List Char) : Reads remaining s s.length s :=
  fun p => ⟨p, rfl⟩

theorem skipWhile_eq (keep : Char → Bool) (s : List Char) (p : Position) :
    ∃ q, Cursor.skipWhile keep ⟨s, p⟩ = ⟨s.dropWhile keep, q⟩ := by
  change ∃ q, Cursor.skipWhile.go keep p s = _
  induction s generalizing p with
  | nil => exact ⟨p, rfl⟩
  | cons c s ih =>
    rw [Cursor.skipWhile.go]
    cases skipped : keep c with
    | true =>
      rw [if_pos rfl, List.dropWhile_cons_of_pos skipped]
      exact ih _
    | false =>
      rw [List.dropWhile_cons_of_neg (by simp [skipped])]
      exact ⟨p, rfl⟩

theorem Reads.takeAll (keep : Char → Bool) (s : List Char) :
    Reads (takeAll keep) s (s.takeWhile keep) (s.dropWhile keep) := by
  intro p
  obtain ⟨q, skipped⟩ := skipWhile_eq keep s p
  exact ⟨q, by rw [Reader.takeAll, skipped]⟩

/-! ## Escapes -/

theorem Reads.shortEscape {d : Char} (short : shortEscape? d = some c) (k : List Char) :
    Reads escape (d :: k) c k := by
  refine (Reads.peek? (d :: k)).bind ?_
  have other : d ≠ 'u' := by
    rintro rfl
    cases short
  dsimp only [List.head?_cons]
  split
  · case h_1 none => cases none
  · case h_2 same =>
    cases same
    exact absurd rfl other
  · case h_3 same =>
    cases same
    rw [short]
    exact (Reads.advance d k).bind (.pure c k)

theorem length_le_utf8ByteSize (s : List Char) : s.length ≤ (String.ofList s).utf8ByteSize := by
  induction s with
  | nil => exact Nat.zero_le _
  | cons c s ih =>
    have one := c.utf8Size_pos
    have size : (String.ofList ([c] ++ s)).utf8ByteSize = c.utf8Size + (String.ofList s).utf8ByteSize := by
      simp
    rw [List.singleton_append] at size
    rw [List.length_cons, size]
    omega

theorem Reads.fourDigits {digits : List Char} {n : Nat} (four : digits.length = 4)
    (number : hexNumber? digits = some n) (k : List Char) : Reads Reader.hexEscape (digits ++ k) n k := by
  have size : ¬(String.ofList digits).utf8ByteSize < 4 :=
    Nat.not_lt.mpr (four ▸ length_le_utf8ByteSize digits)
  have front : (digits ++ k).take 4 = digits := List.take_left' four
  have behind : (digits ++ k).drop 4 = k := List.drop_left' four
  intro p
  refine ⟨p.afterBytes 4 (digits ++ k), ?_⟩
  simp only [Reader.hexEscape, front, behind, if_neg size, number]

theorem Reads.between (c : Char) (k : List Char) : Reads (betweenSurrogates c) (c :: k) () k := by
  refine (Reads.peek? _).bind ?_
  dsimp only [List.head?_cons]
  rw [if_pos rfl]
  exact .advance c k

theorem Reads.denoted (stands : Denoted ('\\' :: s) c) (k : List Char) :
    Reads escape (s ++ k) c k := by
  cases stands with
  | plain self => cases self
  | short known => exact .shortEscape known k
  | @numbered digits n four number alone =>
    have notLow : ¬(0xDC00 ≤ n && n ≤ 0xDFFF) = true := by
      simp
      omega
    have single : (n < 0xD800 || 0xDBFF < n) = true := by
      simp only [Bool.or_eq_true, decide_eq_true_eq]
      omega
    refine (Reads.peek? _).bind ((Reads.advance 'u' _).bind ((Reads.fourDigits four number k).bind ?_))
    rw [if_neg notLow, if_pos single]
    exact .pure _ k
  | @paired high low n m fourHigh numberHigh isHigh fourLow numberLow isLow =>
    have notLow : ¬(0xDC00 ≤ n && n ≤ 0xDFFF) = true := by
      simp
      omega
    have notSingle : ¬(n < 0xD800 || 0xDBFF < n) = true := by
      simp
      omega
    have fits : ¬(m < 0xDC00 || 0xDFFF < m) = true := by
      simp
      omega
    refine (Reads.peek? _).bind ((Reads.advance 'u' _).bind ?_)
    change Reads Reader.codePoint (high ++ '\\' :: 'u' :: low ++ k) _ k
    rw [List.append_assoc]
    -- The first number is the high half of a pair, so a second escape is read for the low one.
    refine (Reads.fourDigits fourHigh numberHigh _).bind ?_
    rw [if_neg notLow, if_neg notSingle]
    refine (Reads.between '\\' _).bind ((Reads.between 'u' _).bind ((Reads.fourDigits fourLow numberLow k).bind ?_))
    rw [if_neg fits]
    exact .pure _ k

/-! ## Strings -/

theorem isPlain_iff : isPlain c = true ↔ (c ≠ '"' ∧ c ≠ '\\') ∧ 0x20 ≤ c.toNat := by
  rw [isPlain, Bool.and_eq_true, Bool.and_eq_true, bne_iff_ne, bne_iff_ne, decide_eq_true_eq]

theorem takeWhile_run (plain : ∀ c ∈ s, isPlain c = true) (special : isPlain c = false) (k : List Char) :
    (s ++ c :: k).takeWhile isPlain = s ∧ (s ++ c :: k).dropWhile isPlain = c :: k := by
  rw [List.takeWhile_append_of_pos plain, List.dropWhile_append_of_pos plain,
    List.takeWhile_cons_of_neg (by simp [special]), List.dropWhile_cons_of_neg (by simp [special])]
  exact ⟨List.append_nil s, rfl⟩

theorem Reads.run (plain : ∀ c ∈ s, isPlain c = true) (special : isPlain c = false) (k : List Char) :
    Reads (Reader.takeAll isPlain) (s ++ c :: k) s (c :: k) := by
  obtain ⟨front, behind⟩ := takeWhile_run plain special k
  have reads := Reads.takeAll isPlain (s ++ c :: k)
  rw [front, behind] at reads
  exact reads

theorem exists_letterRun (s : List Letter) : ∃ (run : List Char) (rest : List Letter), (∀ c ∈ run, isPlain c = true) ∧
    s.flatMap Letter.text = run ++ rest.flatMap Letter.text ∧ s.map Letter.char = run ++ rest.map Letter.char ∧
    rest.length ≤ s.length ∧ (rest = [] ∨ ∃ u t e, rest = u :: t ∧ u.text = '\\' :: e) := by
  induction s with
  | nil => exact ⟨[], [], List.forall_mem_nil _, rfl, rfl, Nat.le_refl 0, .inl rfl⟩
  | cons u s ih =>
    obtain ⟨text, char, denoted⟩ := u
    cases denoted with
    | plain self =>
      obtain ⟨run, rest, plain, text, chars, shorter, starts⟩ := ih
      exact ⟨char :: run, rest, List.forall_mem_cons.mpr ⟨self, plain⟩, congrArg (char :: ·) text,
        congrArg (char :: ·) chars, Nat.le_succ_of_le shorter, starts⟩
    | short | numbered | paired =>
      exact ⟨[], _, List.forall_mem_nil _, rfl, rfl, Nat.le_refl _, .inr ⟨_, _, _, rfl, rfl⟩⟩

theorem Reads.letters {n : Nat} {s : List Letter} (enough : s.length < n) (k : List Char) :
    Reads (Reader.stringUpTo n) (s.flatMap Letter.text ++ '"' :: k) (s.map Letter.char) k := by
  induction n generalizing s with
  | zero => exact absurd enough (Nat.not_lt_zero _)
  | succ n ih =>
    obtain ⟨run, rest, plain, text, chars, shorter, rfl | ⟨⟨_, c, denoted⟩, t, e, rfl, rfl⟩⟩ := exists_letterRun s
    · rw [text, chars, List.flatMap_nil, List.map_nil, List.append_nil]
      refine (Reads.run plain rfl k).bind ((Reads.peek? _).bind ?_)
      exact (Reads.advance '"' k).bind (.pure run k)
    · have fewer : t.length < n := Nat.lt_of_succ_lt_succ (Nat.lt_of_le_of_lt shorter enough)
      have whole : s.flatMap Letter.text ++ '"' :: k =
          run ++ '\\' :: (e ++ (t.flatMap Letter.text ++ '"' :: k)) := by
        simp [text]
      rw [whole, chars, List.map_cons]
      refine (Reads.run plain rfl _).bind ((Reads.peek? _).bind ((Reads.advance '\\' _).bind ?_))
      exact (Reads.denoted denoted _).bind ((ih fewer).bind (.pure (run ++ c :: t.map Letter.char) k))

theorem length_le_letters (s : List Letter) : s.length ≤ (s.flatMap Letter.text).length := by
  induction s with
  | nil => exact Nat.le_refl 0
  | cons u s ih =>
    have visible := List.length_pos_iff.mpr (Letter.text_ne_nil u)
    rw [List.flatMap_cons, List.length_append, List.length_cons]
    omega

theorem Reads.stringBody (s : List Letter) (k : List Char) :
    Reads Reader.stringTail (s.flatMap Letter.text ++ '"' :: k) (s.map Letter.char) k := by
  refine (Reads.remaining _).bind (.letters ?_ k)
  have long := length_le_letters s
  rw [List.length_append]
  omega

end Reader

end Vitae.Json
