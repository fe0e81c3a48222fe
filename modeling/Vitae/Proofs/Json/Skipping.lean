import Vitae.Proofs.Json.Written

/-!
# Going over a value

The value of an unknown field is gone over to its end, whatever it is. The brackets that are open around it stay as
they were.
-/

namespace Vitae.Json.Reader

variable {s k e rest digits : List Char} {c : Char} {n : Nat}

/-! ## Strings -/

theorem Reads.skipEscape_short {d : Char} (known : shortEscape? d = some c) (k : List Char) :
    Reads skipEscape (d :: k) () k := by
  refine (Reads.peek? _).bind ?_
  have other : d ≠ 'u' := by
    rintro rfl
    cases known
  dsimp only [List.head?_cons]
  split
  · case h_1 none => cases none
  · case h_2 same =>
    cases same
    exact absurd rfl other
  · case h_3 same =>
    cases same
    rw [known, Option.isSome_some, if_pos rfl]
    exact .advance d k

theorem Reads.skipEscape_numbered (four : digits.length = 4) (number : hexNumber? digits = some n) (k : List Char) :
    Reads skipEscape ('u' :: (digits ++ k)) () k :=
  (Reads.peek? _).bind ((Reads.advance 'u' _).bind ((Reads.fourDigits four number k).bind (.pure () k)))

theorem Reads.skipTurn {run : List Char} (plain : ∀ c ∈ run, isPlain c = true) (escape : Reads skipEscape e () rest)
    (h : Reads (skipStringUpTo n) rest () k) : Reads (skipStringUpTo (n + 1)) (run ++ '\\' :: e) () k :=
  (Reads.run plain rfl e).bind ((Reads.peek? _).bind ((Reads.advance '\\' e).bind (escape.bind h)))

theorem Reads.skipLetters {s : List Letter} (enough : (s.flatMap Letter.text).length < n) (k : List Char) :
    Reads (skipStringUpTo n) (s.flatMap Letter.text ++ '"' :: k) () k := by
  induction n using Nat.strongRecOn generalizing s with
  | _ n ih =>
    obtain ⟨n, rfl⟩ := Nat.exists_eq_succ_of_ne_zero (Nat.ne_zero_of_lt enough)
    obtain ⟨run, rest, plain, text, -, -, rfl | ⟨⟨_, c, denoted⟩, t, e, rfl, rfl⟩⟩ := exists_letterRun s
    · rw [text, List.flatMap_nil, List.append_nil]
      exact (Reads.run plain rfl k).bind ((Reads.peek? _).bind (.advance '"' k))
    · have whole : s.flatMap Letter.text ++ '"' :: k =
          run ++ '\\' :: (e ++ (t.flatMap Letter.text ++ '"' :: k)) := by
        simp [text]
      have length : run.length + (e.length + 1) + (t.flatMap Letter.text).length < n + 1 := by
        rw [text, List.flatMap_cons, List.length_append, List.length_append, List.length_cons] at enough
        omega
      rw [whole]
      cases denoted with
      | plain self => cases self
      | short known => exact .skipTurn plain (.skipEscape_short known _) (ih n (by omega) (by omega))
      | numbered four number => exact .skipTurn plain (.skipEscape_numbered four number _) (ih n (by omega) (by omega))
      | @paired high low _ _ fourHigh numberHigh _ fourLow numberLow =>
        -- the two numbers of a pair are skipped in two turns, which is why the induction is on all smaller fuel
        simp only [List.length_cons, List.length_append] at length
        have long : low.length + 2 < n := by omega
        obtain ⟨n, rfl⟩ := Nat.exists_eq_succ_of_ne_zero (Nat.ne_zero_of_lt long)
        have second : Reads (skipStringUpTo (n + 1))
            ([] ++ '\\' :: 'u' :: (low ++ (t.flatMap Letter.text ++ '"' :: k))) () k :=
          .skipTurn (List.forall_mem_nil _) (.skipEscape_numbered fourLow numberLow _)
            (ih n (by omega) (by omega))
        refine .skipTurn plain ?_ second
        change Reads skipEscape ('u' :: (high ++ '\\' :: 'u' :: low ++ _)) () _
        rw [List.append_assoc]
        exact .skipEscape_numbered fourHigh numberHigh _

theorem Reads.skipQuoted (s : List Letter) (k : List Char) :
    Reads skipString (s.flatMap Letter.text ++ '"' :: k) () k := by
  refine (Reads.remaining _).bind (.skipLetters ?_ k)
  rw [List.length_append]
  omega

/-! ## Numbers -/

theorem Reads.digitRun (all : ∀ c ∈ digits, c.isDigit = true) (stop : ∀ c ∈ k.head?, c.isDigit = false) :
    Reads (Reader.takeAll Char.isDigit) (digits ++ k) digits k := by
  have reads := Reads.takeAll Char.isDigit (digits ++ k)
  rw [List.takeWhile_append_of_pos all, List.dropWhile_append_of_pos all] at reads
  cases k with
  | nil => simpa using reads
  | cons c k =>
    have here := stop c rfl
    rw [List.takeWhile_cons_of_neg (by simp [here]), List.dropWhile_cons_of_neg (by simp [here])] at reads
    simpa using reads

theorem stop_of_stops (stops : Stops k) : ∀ c ∈ k.head?, c.isDigit = false ∧ c ≠ '.' ∧ c ≠ 'e' ∧ c ≠ 'E' := by
  intro c mem
  rcases stops c mem with blank | token
  · simp only [isSpace, Bool.or_eq_true, decide_eq_true_eq] at blank
    rcases blank with ((rfl | rfl) | rfl) | rfl <;> decide
  · simp only [List.mem_cons, List.not_mem_nil, or_false] at token
    rcases token with rfl | rfl | rfl <;> decide

theorem Reads.skipExponent (m : Numeral) (stops : Stops k) : Reads Reader.skipExponent (m.exponent ++ k) () k := by
  have stop := stop_of_stops stops
  refine (Reads.peek? _).bind ?_
  rcases m.exponent_form with none | ⟨e, sign, digits, text, letter, signed, visible, all⟩
  · rw [none, List.nil_append]
    have other : ¬(k.head?.any fun c => c == 'e' || c == 'E') = true := by
      cases head : k.head? with
      | none => simp
      | some c =>
        obtain ⟨-, -, small, great⟩ := stop c head
        simp [small, great]
    rw [if_neg other]
    exact .pure () k
  · rw [text, List.cons_append, List.append_assoc]
    have marked : ((e :: (sign ++ (digits ++ k))).head?.any fun c => c == 'e' || c == 'E') = true := by
      simpa using letter
    have behind : Reads (do if (← Reader.takeAll Char.isDigit).isEmpty then failAhead .invalidNumber)
        (digits ++ k) () k := by
      refine (Reads.digitRun all fun c mem => (stop c mem).1).bind ?_
      rw [if_neg (by simpa using visible)]
      exact .pure () k
    obtain ⟨d, ds, rfl⟩ := List.exists_cons_of_ne_nil visible
    have plain : ¬(d == '+' || d == '-') = true := by
      have digit := all d List.mem_cons_self
      intro signed
      simp only [Bool.or_eq_true, beq_iff_eq] at signed
      rcases signed with rfl | rfl <;> cases digit
    rw [if_pos marked]
    refine (Reads.advance e _).bind ((Reads.peek? _).bind ?_)
    simp only [List.mem_cons, List.not_mem_nil, or_false] at signed
    rcases signed with rfl | rfl | rfl
    · rw [if_neg (by simpa using plain)]
      exact behind
    · exact (Reads.advance '+' _).bind behind
    · exact (Reads.advance '-' _).bind behind

theorem stop_exponent (m : Numeral) (stops : Stops k) : ∀ c ∈ (m.exponent ++ k).head?, c.isDigit = false ∧ c ≠ '.' := by
  rcases m.exponent_form with none | ⟨e, sign, digits, text, rfl | rfl, -⟩
  · rw [none]
    exact fun c mem => ⟨(stop_of_stops stops c mem).1, (stop_of_stops stops c mem).2.1⟩
  all_goals
    rw [text]
    rintro c ⟨⟩
    decide

theorem stop_fraction (m : Numeral) (stops : Stops k) :
    ∀ c ∈ (m.fractionText ++ (m.exponent ++ k)).head?, c.isDigit = false := by
  rw [Numeral.fractionText]
  split
  · exact fun c mem => (stop_exponent m stops c mem).1
  · rintro c ⟨⟩
    decide

theorem Reads.skipFraction (m : Numeral) (stops : Stops k) :
    Reads (do
        if (← Reader.peek?) == some '.' then
          Reader.advance
          if (← Reader.takeAll Char.isDigit).isEmpty then failAhead .invalidNumber
        Reader.skipExponent)
      (m.fractionText ++ (m.exponent ++ k)) () k := by
  have exponent := Reads.skipExponent m stops
  have stop := stop_exponent m stops
  rw [Numeral.fractionText]
  refine (Reads.peek? _).bind ?_
  split
  · rw [List.nil_append, if_neg ?_]
    · exact exponent
    · intro dotted
      rw [beq_iff_eq] at dotted
      exact (stop '.' dotted).2 rfl
  · case isFalse visible =>
    refine (Reads.advance '.' _).bind ((Reads.digitRun m.fraction_digits fun c mem => (stop c mem).1).bind ?_)
    rw [if_neg (by simpa using visible)]
    exact exponent

theorem Reads.skipNumber (m : Numeral) (stops : Stops k) :
    Reads Reader.skipNumber (m.whole ++ (m.fractionText ++ (m.exponent ++ k))) () k := by
  have behind := Reads.skipFraction m stops
  have stop := stop_fraction m stops
  obtain ⟨visible, all⟩ := m.whole_digits
  obtain ⟨c, ds, whole⟩ := List.exists_cons_of_ne_nil visible
  have text : m.whole ++ (m.fractionText ++ (m.exponent ++ k)) =
      c :: (ds ++ (m.fractionText ++ (m.exponent ++ k))) := by
    rw [whole, List.cons_append]
  refine (Reads.peek? _).bind ?_
  dsimp only
  split
  · case h_1 zero =>
    have lone := m.whole_zero (by simpa [text, whole] using zero)
    rw [lone, List.singleton_append]
    refine (Reads.advance '0' _).bind ((Reads.peek? _).bind ?_)
    have other : (m.fractionText ++ (m.exponent ++ k)).head?.any Char.isDigit = false := by
      cases head : (m.fractionText ++ (m.exponent ++ k)).head? with
      | none => rfl
      | some d => exact stop d head
    rw [if_neg (ne_true_of_eq_false other)]
    exact behind
  · refine (Reads.digitRun all stop).bind ?_
    rw [if_neg (by simpa using visible)]
    exact behind

/-! ## Starts of values -/

theorem Reads.skipStart_null (g : Gap) (k : List Char) : Reads skipStart (g.1 ++ ("null".toList ++ k)) none k :=
  (Reads.gap g rfl _).bind ((Reads.ident "null".toList k).bind (.pure none k))

theorem Reads.skipStart_bool (g : Gap) (b : Bool) (k : List Char) :
    Reads skipStart (g.1 ++ ((Written.bool b).text ++ k)) none k := by
  cases b with
  | true => exact (Reads.gap g rfl _).bind ((Reads.ident "true".toList k).bind (.pure none k))
  | false => exact (Reads.gap g rfl _).bind ((Reads.ident "false".toList k).bind (.pure none k))

theorem Reads.skipStart_number (g : Gap) (m : Numeral) (stops : Stops k) :
    Reads skipStart (g.1 ++ (m.text ++ k)) none k := by
  have number := Reads.skipNumber m stops
  have text : m.text ++ k = (if m.negative then ['-'] else []) ++
      (m.whole ++ (m.fractionText ++ (m.exponent ++ k))) := by
    simp only [Numeral.text, List.append_assoc]
  rw [text]
  split
  · exact (Reads.gap g rfl _).bind ((Reads.advance '-' _).bind (number.bind (.pure none k)))
  · obtain ⟨visible, all⟩ := m.whole_digits
    obtain ⟨c, ds, whole⟩ := List.exists_cons_of_ne_nil visible
    have digit := all c (whole ▸ List.mem_cons_self)
    rw [List.nil_append]
    rw [whole, List.cons_append] at number ⊢
    refine (Reads.gap g (isSpace_of_isDigit digit) _).bind ?_
    split
    case h_9 same =>
      cases same
      rw [if_pos digit]
      exact number.bind (.pure none k)
    all_goals
      case _ same => cases same <;> cases digit

theorem Reads.skipStart_string (g : Gap) (s : List Letter) (k : List Char) :
    Reads skipStart (g.1 ++ (quoted s ++ k)) none k := by
  rw [quoted_append]
  exact (Reads.gap g rfl _).bind ((Reads.advance '"' _).bind ((Reads.skipQuoted s k).bind (.pure none k)))

theorem Reads.skipStart_array (g : Gap) (k : List Char) : Reads skipStart (g.1 ++ '[' :: k) (some .list) k :=
  (Reads.gap g rfl _).bind ((Reads.advance '[' _).bind (.pure _ k))

theorem Reads.skipStart_object (g : Gap) (k : List Char) : Reads skipStart (g.1 ++ '\x7b' :: k) (some .object) k :=
  (Reads.gap g rfl _).bind ((Reads.advance '\x7b' _).bind (.pure _ k))

/-! ## Brackets -/

theorem Reads.closings_comma (g : Gap) (b : Bracket) (bs : List Bracket) (k : List Char) :
    Reads (skipClosings true (b :: bs)) (g.1 ++ ',' :: k) (b :: bs) k :=
  (Reads.gap g rfl _).bind ((Reads.advance ',' _).bind (.pure _ k))

theorem Reads.closings_part {b : Bracket} (g : Gap) (visible : isSpace c = false) (part : c ≠ b.closing)
    (bs : List Bracket) (k : List Char) : Reads (skipClosings false (b :: bs)) (g.1 ++ c :: k) (b :: bs) (c :: k) := by
  refine (Reads.gap g visible _).bind ?_
  dsimp only
  rw [if_neg (by simp), if_neg part, if_neg (by simp)]
  exact .pure _ _

theorem Reads.closings_before {b : Bracket} (first : Bool) (g : Gaps) (visible : isSpace c = false)
    (part : c ≠ b.closing) (bs : List Bracket) (k : List Char) : ∃ g' : Gap,
      Reads (skipClosings (!first) (b :: bs)) (g.text first ++ c :: k) (b :: bs) (g'.1 ++ c :: k) := by
  cases first with
  | true => exact ⟨.none, .closings_part g.part visible part bs k⟩
  | false =>
    refine ⟨g.part, ?_⟩
    rw [Gaps.text_append]
    exact .closings_comma g.comma b bs _

variable {α β : Type}

/-- From the one text, the one reader does what the other does from the other text. -/
def Continues (r : Reader α) (s : List Char) (r' : Reader α) (s' : List Char) : Prop :=
  ∀ p, ∃ q, r ⟨s, p⟩ = r' ⟨s', q⟩

namespace Continues

variable {r r' r'' : Reader α} {s s' s'' k : List Char} {a : α}

theorem of_reads (read : Reads r s a s') (f : α → Reader β) : Continues (r >>= f) s (f a) s' := by
  intro p
  obtain ⟨q, read⟩ := read p
  refine ⟨q, ?_⟩
  change StateT.bind r f ⟨s, p⟩ = _
  rw [StateT.bind, read]
  rfl

theorem bind (h : Continues r s r' s') (f : α → Reader β) : Continues (r >>= f) s (r' >>= f) s' := by
  intro p
  obtain ⟨q, same⟩ := h p
  refine ⟨q, ?_⟩
  change StateT.bind r f ⟨s, p⟩ = StateT.bind r' f ⟨s', q⟩
  rw [StateT.bind, StateT.bind, same]

theorem trans (h : Continues r s r' s') (h' : Continues r' s' r'' s'') : Continues r s r'' s'' := by
  intro p
  obtain ⟨q, same⟩ := h p
  obtain ⟨q', same'⟩ := h' q
  exact ⟨q', same.trans same'⟩

theorem reads (h : Continues r s r' s') (read : Reads r' s' a k) : Reads r s a k := by
  intro p
  obtain ⟨q, same⟩ := h p
  obtain ⟨q', read⟩ := read q
  exact ⟨q', same.trans read⟩

theorem closings_closing (b : Bracket) (bs : List Bracket) (behindValue : Bool) (g : Gap) (k : List Char) :
    Continues (skipClosings behindValue (b :: bs)) (g.1 ++ b.closing :: k) (skipClosings true bs) k := by
  have visible : isSpace b.closing = false := by cases b <;> rfl
  have noComma : ¬(b.closing = ',' && behindValue) = true := by cases b <;> simp [Bracket.closing]
  refine (of_reads (Reads.gap g visible k) _).trans ?_
  dsimp only
  rw [if_neg noComma, if_pos rfl]
  exact of_reads (Reads.advance _ k) _

end Continues

/-! ## Values -/

mutual

def starts : Written → Nat
  | .null | .bool _ | .number _ | .string _ => 1
  | .array items _ => itemStarts items + 1
  | .object members _ => memberStarts members + 1

def itemStarts : List (Gaps × Written) → Nat
  | [] => 0
  | (_, v) :: items => starts v + itemStarts items

def memberStarts : List (Head × Written) → Nat
  | [] => 0
  | (_, v) :: members => starts v + memberStarts members

end

def resume (n : Nat) : List Bracket → Reader Unit
  | [] => return ()
  | b :: bs => do
    if b = .object then skipName
    skipParts (b :: bs) n

theorem continues_plain {around : List Bracket} (read : Reads skipStart s none k) :
    Continues (skipParts around (n + 1)) s (skipClosings true around >>= resume n) k :=
  Continues.of_reads read _

theorem continues_opening {around : List Bracket} {b : Bracket} (read : Reads skipStart s (some b) k) :
    Continues (skipParts around (n + 1)) s (skipClosings false (b :: around) >>= resume n) k :=
  Continues.of_reads read _

theorem Reads.skipName (g : Gap) (h : Head) (k : List Char) :
    Reads Reader.skipName (g.1 ++ (quoted h.name ++ (h.colon.1 ++ ':' :: k))) () k := by
  rw [quoted_append]
  exact (Reads.gap g rfl _).bind ((Reads.advance '"' _).bind ((Reads.skipQuoted h.name _).bind
    (.colon h.colon k)))

mutual

/-- A value is gone over, and what follows is read as it would be without it. Each value in it that is started takes
one turn. -/
theorem continues_value : (v : Written) → (around : List Bracket) → (n : Nat) → (g : Gap) → (k : List Char) →
    Stops k → Continues (skipParts around (starts v + n)) (g.1 ++ (v.text ++ k))
      (skipClosings true around >>= resume n) k
  | .null, around, n, g, k, _ => by
    rw [starts, Nat.add_comm]
    exact continues_plain (.skipStart_null g k)
  | .bool b, around, n, g, k, _ => by
    rw [starts, Nat.add_comm]
    exact continues_plain (.skipStart_bool g b k)
  | .number m, around, n, g, k, stops => by
    rw [starts, Nat.add_comm]
    exact continues_plain (.skipStart_number g m stops)
  | .string s, around, n, g, k, _ => by
    rw [starts, Nat.add_comm]
    exact continues_plain (.skipStart_string g s k)
  | .array items last, around, n, g, k, _ => by
    rw [Written.array_append, starts, Nat.add_right_comm]
    exact (continues_opening (.skipStart_array g _)).trans (continues_items items true around n last k)
  | .object members last, around, n, g, k, _ => by
    rw [Written.object_append, starts, Nat.add_right_comm]
    exact (continues_opening (.skipStart_object g _)).trans (continues_members members true around n last k)

theorem continues_items : (items : List (Gaps × Written)) → (first : Bool) → (around : List Bracket) → (n : Nat) →
    (last : Gap) → (k : List Char) →
    Continues (skipClosings (!first) (.list :: around) >>= resume (itemStarts items + n))
      (itemsText first items ++ (last.1 ++ ']' :: k)) (skipClosings true around >>= resume n) k
  | [], first, around, n, last, k => by
    rw [itemStarts, Nat.zero_add]
    exact (Continues.closings_closing .list around _ last k).bind _
  | (g, v) :: items, first, around, n, last, k => by
    obtain ⟨c, t, start, startsWith⟩ := v.exists_start
    have part : c ≠ Bracket.list.closing := startsWith.not_closing
    have here := continues_value v (.list :: around) (itemStarts items + n)
    have behind := continues_items items false around n last k
    rw [itemsText, List.append_assoc, List.append_assoc]
    rw [start] at here ⊢
    obtain ⟨g', before⟩ := Reads.closings_before first g startsWith.visible part around
      (t ++ (itemsText false items ++ (last.1 ++ ']' :: k)))
    refine (Continues.of_reads before _).trans (.trans ?_ behind)
    rw [itemStarts, Nat.add_assoc]
    exact here g' _ (.behind_items items last k)

theorem continues_members : (members : List (Head × Written)) → (first : Bool) → (around : List Bracket) →
    (n : Nat) → (last : Gap) → (k : List Char) →
    Continues (skipClosings (!first) (.object :: around) >>= resume (memberStarts members + n))
      (membersText first members ++ (last.1 ++ '\x7d' :: k)) (skipClosings true around >>= resume n) k
  | [], first, around, n, last, k => by
    rw [memberStarts, Nat.zero_add]
    exact (Continues.closings_closing .object around _ last k).bind _
  | (h, v) :: members, first, around, n, last, k => by
    have here := continues_value v (.object :: around) (memberStarts members + n) h.value _
      (.behind_members members last k)
    have behind := continues_members members false around n last k
    have part : '"' ≠ Bracket.object.closing := by decide
    rw [membersText_append, quoted_append]
    obtain ⟨g', before⟩ := Reads.closings_before first h.toGaps rfl part around (h.name.flatMap Letter.text ++
      '"' :: (h.colon.1 ++ ':' :: (h.value.1 ++ (v.text ++ (membersText false members ++ (last.1 ++ '\x7d' :: k))))))
    refine (Continues.of_reads before _).trans (.trans ?_ behind)
    rw [memberStarts, Nat.add_assoc]
    have name := Reads.skipName g' h (h.value.1 ++ (v.text ++ (membersText false members ++ (last.1 ++ '\x7d' :: k))))
    rw [quoted_append] at name
    exact (Continues.of_reads name _).trans here

end

mutual

theorem starts_le : (v : Written) → starts v ≤ v.text.length
  | .null => by decide
  | .bool b => by cases b <;> decide
  | .number m => by
    obtain ⟨c, t, text, -⟩ := m.startsWith
    rw [starts, Written.text, text]
    exact Nat.succ_pos _
  | .string s => Nat.succ_pos _
  | .array items last => by
    have items := itemStarts_le items true
    rw [starts, Written.text, List.length_cons, List.length_append]
    omega
  | .object members last => by
    have members := memberStarts_le members true
    rw [starts, Written.text, List.length_cons, List.length_append]
    omega

theorem itemStarts_le : (items : List (Gaps × Written)) → (first : Bool) →
    itemStarts items ≤ (itemsText first items).length
  | [], _ => Nat.zero_le _
  | (g, v) :: items, first => by
    have here := starts_le v
    have behind := itemStarts_le items false
    rw [itemStarts, itemsText, List.length_append, List.length_append]
    omega

theorem memberStarts_le : (members : List (Head × Written)) → (first : Bool) →
    memberStarts members ≤ (membersText first members).length
  | [], _ => Nat.zero_le _
  | (h, v) :: members, first => by
    have here := starts_le v
    have behind := memberStarts_le members false
    rw [memberStarts, membersText, List.length_append, List.length_append]
    omega

end

theorem Reads.skipValue (v : Written) (g : Gap) (stops : Stops k) :
    Reads Reader.skipValue (g.1 ++ (v.text ++ k)) () k := by
  have few := starts_le v
  obtain ⟨n, enough⟩ : ∃ n, (g.1 ++ (v.text ++ k)).length + 1 = starts v + n := by
    refine Nat.exists_eq_add_of_le ?_
    rw [List.length_append, List.length_append]
    omega
  refine (Reads.remaining _).bind ?_
  rw [enough]
  exact (continues_value v [] n g k stops).reads (.pure () k)

end Vitae.Json.Reader
