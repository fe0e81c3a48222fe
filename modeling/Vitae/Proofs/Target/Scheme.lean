import Vitae.Tex.Target

/-!
# Schemes of link targets

An address is absolute when it starts with a scheme. A target keeps the scheme of what the user typed and
has none where that has none (`startsScheme_encode_iff`), so whether a target is absolute is decided by when
an address counts as having a scheme (`hasScheme_iff`). An address with `://` behind its start, as in a
query, counts as such without having one: `absolute_url?_iff` says that nothing else goes wrong.
-/

namespace Vitae.Tex.Target

open Text

/-! ## Letters of any case -/

theorem isAlpha_iff {c : Char} :
    c.isAlpha = true ↔ (65 ≤ c.toNat ∧ c.toNat ≤ 90) ∨ (97 ≤ c.toNat ∧ c.toNat ≤ 122) := by
  have upper : c.isUpper = true ↔ 65 ≤ c.toNat ∧ c.toNat ≤ 90 := decide_eq_true_iff
  have lower : c.isLower = true ↔ 97 ≤ c.toNat ∧ c.toNat ≤ 122 :=
    Bool.and_eq_true_iff.trans (and_congr decide_eq_true_iff decide_eq_true_iff)
  have either : c.isAlpha = (c.isUpper || c.isLower) := rfl
  rw [either, Bool.or_eq_true, upper, lower]

theorem toLower_cases (c : Char) : c.toLower = c ∨ c.isAlpha = true ∧ c.toLower.isAlpha = true := by
  unfold Char.toLower
  split
  · case isTrue upper =>
    have above : 65 ≤ c.toNat := upper.1
    have below : c.toNat ≤ 90 := upper.2
    have moved : (c.val + 32).toNat = c.toNat + 32 := by
      rw [UInt32.toNat_add]
      exact Nat.mod_eq_of_lt (by simp; omega)
    refine .inr ⟨isAlpha_iff.mpr (.inl ⟨above, below⟩), isAlpha_iff.mpr (.inr ?_)⟩
    change 97 ≤ (c.val + 32).toNat ∧ (c.val + 32).toNat ≤ 122
    omega
  · exact .inl rfl

theorem isAlpha_of_toLower {c : Char} (h : c.toLower.isAlpha = true) : c.isAlpha = true := by
  obtain same | ⟨letter, -⟩ := toLower_cases c
  · rwa [same] at h
  · exact letter

theorem eq_of_toLower {c d : Char} (h : c.toLower = d) (other : d.isAlpha = false) : c = d := by
  obtain same | ⟨-, letter⟩ := toLower_cases c
  · exact same.symm.trans h
  · rw [h, other] at letter
    cases letter

def Opens (word : String) (s : List Char) : Prop :=
  (s.take word.toList.length).map Char.toLower = word.toList

instance (word : String) (s : List Char) : Decidable (Opens word s) :=
  inferInstanceAs (Decidable (_ = _))

/-! ## Schemes -/

def isSchemeChar (c : Char) : Bool :=
  c.isAlphanum || c = '+' || c = '-' || c = '.'

/-- The text starts with a letter, then any number of letters, digits, plus signs, minus signs and dots,
then a colon. -/
def StartsScheme (s : List Char) : Prop :=
  ∃ a w r, s = a :: (w ++ ':' :: r) ∧ a.isAlpha = true ∧ w.all isSchemeChar = true

theorem isSchemeChar_of_isAlpha {c : Char} (h : c.isAlpha = true) : isSchemeChar c = true := by
  simp [isSchemeChar, Char.isAlphanum, h]

theorem all_isSchemeChar_cons {a : Char} {w : List Char} (letter : a.isAlpha = true)
    (rest : w.all isSchemeChar = true) : (a :: w).all isSchemeChar = true := by
  rw [List.all_cons, isSchemeChar_of_isAlpha letter, rest]
  rfl

theorem startsScheme_iff {s : List Char} : StartsScheme s ↔
    s.head?.any Char.isAlpha = true ∧ (s.dropWhile isSchemeChar).head? = some ':' := by
  constructor
  · rintro ⟨a, w, r, rfl, letter, rest⟩
    refine ⟨letter, ?_⟩
    rw [List.dropWhile_cons_of_pos (isSchemeChar_of_isAlpha letter),
      List.dropWhile_append_of_pos (List.all_eq_true.mp rest)]
    rfl
  · rintro ⟨letter, colon⟩
    cases s with
    | nil => cases letter
    | cons a s =>
      rw [List.head?_cons, Option.any_some] at letter
      rw [List.dropWhile_cons_of_pos (isSchemeChar_of_isAlpha letter)] at colon
      obtain ⟨r, behind⟩ := List.head?_eq_some_iff.mp colon
      refine ⟨a, s.takeWhile isSchemeChar, r, ?_, letter, List.all_takeWhile⟩
      rw [← behind, List.takeWhile_append_dropWhile]

instance (s : List Char) : Decidable (StartsScheme s) :=
  decidable_of_iff _ startsScheme_iff.symm

theorem Opens.startsScheme {word : String} {s : List Char} (h : Opens word s) (letters : List Char)
    (spelling : word.toList = letters ++ [':']) (ne : letters ≠ [])
    (alphabetic : letters.all Char.isAlpha = true) : StartsScheme s := by
  rw [Opens, spelling] at h
  obtain ⟨name, tail, cut, lower, colon⟩ := List.map_eq_append_iff.mp h
  obtain ⟨c, rfl, lowerColon⟩ := List.map_eq_singleton_iff.mp colon
  obtain rfl := eq_of_toLower lowerColon rfl
  have alphabeticName : name.all Char.isAlpha = true := by
    rw [← lower, List.all_map, List.all_eq_true] at alphabetic
    exact List.all_eq_true.mpr fun c mem => isAlpha_of_toLower (alphabetic c mem)
  have whole := (List.take_append_drop (letters ++ [':']).length s).symm
  rw [cut] at whole
  cases name with
  | nil => exact absurd lower.symm ne
  | cons a w =>
    rw [List.all_cons, Bool.and_eq_true] at alphabeticName
    refine ⟨a, w, _, by simpa using whole, alphabeticName.1, List.all_eq_true.mpr fun c mem => ?_⟩
    exact isSchemeChar_of_isAlpha (List.all_eq_true.mp alphabeticName.2 c mem)

/-! ## Encoded addresses -/

theorem encodeChar_cases (c : Char) :
    (encodeChar c = [c] ∧ isBlank c = false) ∨ ∃ t, encodeChar c = '\\' :: t := by
  unfold encodeChar
  split
  · exact .inr ⟨_, rfl⟩
  · split
    · exact .inr ⟨_, rfl⟩
    · split
      · cases bytes : String.utf8EncodeChar c with
        | nil => exact absurd bytes (by simp)
        | cons b bs => exact .inr ⟨_, rfl⟩
      · case isFalse plain =>
        rw [Bool.or_eq_true, not_or, Bool.not_eq_true, Bool.not_eq_true] at plain
        exact .inl ⟨rfl, plain.2⟩

theorem exists_of_encode_eq_cons {s : List Char} {c : Char} {t : Tex} (ne : c ≠ '\\')
    (h : encode s = c :: t) : ∃ r, s = c :: r ∧ encode r = t := by
  cases s with
  | nil => cases h
  | cons d s =>
    rw [encode, List.flatMap_cons, ← encode] at h
    obtain ⟨self, -⟩ | ⟨u, coded⟩ := encodeChar_cases d
    · rw [self, List.singleton_append, List.cons.injEq] at h
      exact ⟨s, by rw [h.1], h.2⟩
    · rw [coded, List.cons_append, List.cons.injEq] at h
      exact absurd h.1.symm ne

theorem toNat_lt_of_isSchemeChar {c : Char} (h : isSchemeChar c = true) : c.toNat < 128 := by
  simp only [isSchemeChar, Char.isAlphanum, Char.isDigit, Bool.or_eq_true, Bool.and_eq_true,
    decide_eq_true_eq, isAlpha_iff] at h
  obtain (((letter | digit) | rfl) | rfl) | rfl := h
  · omega
  · exact Nat.lt_of_le_of_lt (show c.toNat ≤ 57 from digit.2) (by decide)
  all_goals decide

theorem encodeChar_of_isSchemeChar {c : Char} (h : isSchemeChar c = true) : encodeChar c = [c] := by
  have kept : ∀ n < 128, isSchemeChar (Char.ofNat n) = true → encodeChar (Char.ofNat n) = [Char.ofNat n] := by
    decide
  rw [← Char.ofNat_toNat c] at h ⊢
  exact kept _ (toNat_lt_of_isSchemeChar (by rwa [Char.ofNat_toNat] at h)) h

theorem encode_of_isSchemeChar {w : List Char} (h : w.all isSchemeChar = true) : encode w = w := by
  induction w with
  | nil => rfl
  | cons c w ih =>
    rw [List.all_cons, Bool.and_eq_true] at h
    rw [encode, List.flatMap_cons, ← encode, encodeChar_of_isSchemeChar h.1, ih h.2]
    rfl

theorem exists_of_encode_eq_append {s w : List Char} {r : Tex} (h : encode s = w ++ ':' :: r)
    (scheme : w.all isSchemeChar = true) : ∃ r, s = w ++ ':' :: r := by
  induction w generalizing s with
  | nil =>
    obtain ⟨r, rfl, -⟩ := exists_of_encode_eq_cons (by decide) h
    exact ⟨r, rfl⟩
  | cons c w ih =>
    rw [List.all_cons, Bool.and_eq_true] at scheme
    have ne : c ≠ '\\' := by
      rintro rfl
      cases scheme.1
    obtain ⟨s, rfl, rest⟩ := exists_of_encode_eq_cons ne h
    obtain ⟨r, rfl⟩ := ih rest scheme.2
    exact ⟨r, rfl⟩

theorem startsScheme_encode_iff {s : List Char} : StartsScheme (encode s) ↔ StartsScheme s := by
  constructor
  · rintro ⟨a, w, r, start, letter, rest⟩
    obtain ⟨r, rfl⟩ := exists_of_encode_eq_append (w := a :: w) start (all_isSchemeChar_cons letter rest)
    exact ⟨a, w, r, rfl, letter, rest⟩
  · rintro ⟨a, w, r, rfl, letter, rest⟩
    refine ⟨a, w, encode r, ?_, letter, rest⟩
    have cut : encode ((a :: w) ++ ([':'] ++ r)) = encode (a :: w) ++ ([':'] ++ encode r) := by
      rw [encode_append, encode_append]
      rfl
    rw [encode_of_isSchemeChar (all_isSchemeChar_cons letter rest)] at cut
    exact cut

/-! ## Addresses that count as having a scheme -/

def NamesScheme (s : List Char) : Prop :=
  "://".toList <:+: s ∨ Opens "mailto:" s ∨ Opens "tel:" s

theorem isSome_stripPrefixNoCase? (word : String) (lower : word.toList.map Char.toLower = word.toList)
    (s : List Char) : (stripPrefixNoCase? word.toList s).isSome = true ↔ Opens word s := by
  rw [stripPrefixNoCase?_eq, lower, Opens]
  split <;> simp_all

theorem hasScheme_iff {s : List Char} : hasScheme s = true ↔ NamesScheme s := by
  rw [hasScheme, Bool.or_eq_true, Bool.or_eq_true, hasInfix_iff, isSome_stripPrefixNoCase? _ rfl,
    isSome_stripPrefixNoCase? _ rfl, or_assoc, NamesScheme]

instance (s : List Char) : Decidable (NamesScheme s) :=
  decidable_of_iff _ hasScheme_iff

def withScheme (s : List Char) : List Char :=
  if NamesScheme s then s else "https://".toList ++ s

theorem withScheme_eq (s : List Char) :
    withScheme s = if hasScheme s = true then s else "https://".toList ++ s := by
  rw [withScheme]
  by_cases scheme : NamesScheme s
  · rw [if_pos scheme, if_pos (hasScheme_iff.mpr scheme)]
  · rw [if_neg scheme, if_neg (mt hasScheme_iff.mp scheme)]

theorem url?_eq_some_iff {s : List Char} {t : Tex} :
    url? s = some t ↔ clean s ≠ [] ∧ t = encode (withScheme (clean s)) := by
  rw [withScheme_eq, url?, Ne, ← List.isEmpty_iff]
  split
  · case isTrue none => simp only [none, reduceCtorEq, not_true, false_and]
  · case isFalse present => rw [Option.some.injEq, and_iff_right present, eq_comm]

def mailbox (s : List Char) : List Char :=
  trim (if Opens "mailto:" s then s.drop "mailto:".toList.length else s)

theorem mailto?_eq_some_iff {s : List Char} {t : Tex} :
    mailto? s = some t ↔ mailbox (clean s) ≠ [] ∧ t = "mailto:".toList ++ encode (mailbox (clean s)) := by
  have cut : (stripPrefixNoCase? "mailto:".toList (clean s)).getD (clean s) =
      if Opens "mailto:" (clean s) then (clean s).drop "mailto:".toList.length else clean s := by
    rw [stripPrefixNoCase?_eq]
    exact apply_ite (Option.getD · (clean s)) ..
  rw [mailbox, ← cut, mailto?, Ne, ← List.isEmpty_iff]
  split
  · case isTrue none => simp only [none, reduceCtorEq, not_true, false_and]
  · case isFalse present => rw [Option.some.injEq, and_iff_right present, eq_comm]

/-! ## Absolute targets -/

theorem startsScheme_secure (s : List Char) : StartsScheme ("https://".toList ++ s) :=
  ⟨'h', "ttps".toList, "//".toList ++ s, rfl, rfl, rfl⟩

theorem startsScheme_of_opens {s : List Char} (h : Opens "mailto:" s ∨ Opens "tel:" s) :
    StartsScheme s := by
  obtain mail | phone := h
  · exact mail.startsScheme "mailto".toList rfl (by decide) (by decide)
  · exact phone.startsScheme "tel".toList rfl (by decide) (by decide)

theorem namesScheme_iff_of_not_startsScheme {s : List Char} (relative : ¬StartsScheme s) :
    NamesScheme s ↔ "://".toList <:+: s :=
  or_iff_left fun word => relative (startsScheme_of_opens word)

theorem url?_of_mark {s : List Char} (mark : "://".toList <:+: clean s) :
    url? s = some (encode (clean s)) := by
  rw [url?_eq_some_iff, withScheme, if_pos (.inl mark)]
  refine ⟨fun none => ?_, rfl⟩
  rw [none] at mark
  exact absurd (List.infix_nil.mp mark) (by decide)

/-- A target is absolute, and has a secure scheme in front where the user typed none, if and only if what
the user typed does not have `://` behind a start that is no scheme. -/
theorem absolute_url?_iff (s : List Char) :
    (∀ t, url? s = some t → StartsScheme t ∧
        (¬StartsScheme (clean s) → t = "https://".toList ++ encode (clean s))) ↔
      ¬("://".toList <:+: clean s ∧ ¬StartsScheme (clean s)) := by
  constructor
  · rintro absolute ⟨mark, relative⟩
    exact relative (startsScheme_encode_iff.mp (absolute _ (url?_of_mark mark)).1)
  · intro fine t target
    obtain ⟨-, rfl⟩ := url?_eq_some_iff.mp target
    rw [startsScheme_encode_iff, withScheme]
    by_cases scheme : StartsScheme (clean s)
    · refine ⟨?_, fun relative => absurd scheme relative⟩
      split
      · exact scheme
      · exact startsScheme_secure _
    · have unnamed : ¬NamesScheme (clean s) := fun named =>
        fine ⟨(namesScheme_iff_of_not_startsScheme scheme).mp named, scheme⟩
      rw [if_neg unnamed, encode_append]
      exact ⟨startsScheme_secure _, fun _ => rfl⟩

theorem relative_url?_query :
    let s := "x.org/?u=https://y.org".toList
    url? s = some s ∧ ¬StartsScheme s ∧ ¬StartsScheme (clean s) := by
  decide

end Vitae.Tex.Target
