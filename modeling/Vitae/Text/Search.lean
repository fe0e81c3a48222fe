namespace Vitae.Text

def hasInfix (p : List Char) : List Char → Bool
  | [] => p.isEmpty
  | c :: s => p.isPrefixOf (c :: s) || hasInfix p s

def stripPrefix? : List Char → List Char → Option (List Char)
  | [], s => some s
  | _ :: _, [] => none
  | p :: ps, c :: s => if c = p then stripPrefix? ps s else none

/-- What follows `p` in a text that starts with it, the letters A-Z counting as a-z. -/
def stripPrefixNoCase? : List Char → List Char → Option (List Char)
  | [], s => some s
  | _ :: _, [] => none
  | p :: ps, c :: s => if c.toLower = p.toLower then stripPrefixNoCase? ps s else none

theorem stripPrefix?_eq_some {p s r : List Char} : stripPrefix? p s = some r ↔ s = p ++ r := by
  induction p generalizing s with
  | nil => simp [stripPrefix?, eq_comm]
  | cons a p ih =>
    cases s with
    | nil => simp [stripPrefix?]
    | cons c s =>
      by_cases h : c = a
      · simp [stripPrefix?, h, ih]
      · simp [stripPrefix?, h]

theorem stripPrefix?_append (p s : List Char) : stripPrefix? p (p ++ s) = some s :=
  stripPrefix?_eq_some.mpr rfl

theorem hasInfix_iff {p s : List Char} : hasInfix p s = true ↔ p <:+: s := by
  induction s with
  | nil => simp [hasInfix]
  | cons c s ih => simp [hasInfix, ih, List.infix_cons_iff]

theorem stripPrefixNoCase?_eq (p s : List Char) :
    stripPrefixNoCase? p s =
      if (s.take p.length).map Char.toLower = p.map Char.toLower then some (s.drop p.length)
      else none := by
  induction p generalizing s with
  | nil => simp [stripPrefixNoCase?]
  | cons a p ih =>
    cases s with
    | nil => simp [stripPrefixNoCase?]
    | cons c s =>
      by_cases same : c.toLower = a.toLower
      · simp [stripPrefixNoCase?, same, ih]
      · simp [stripPrefixNoCase?, same]

theorem stripPrefixNoCase?_eq_some {p s r : List Char} : stripPrefixNoCase? p s = some r ↔
    ∃ q, s = q ++ r ∧ q.map Char.toLower = p.map Char.toLower := by
  rw [stripPrefixNoCase?_eq]
  constructor
  · intro found
    split at found
    · case isTrue same =>
      cases found
      exact ⟨s.take p.length, (List.take_append_drop _ _).symm, same⟩
    · cases found
  · rintro ⟨q, rfl, same⟩
    have length : p.length = q.length := by
      simpa using congrArg List.length same.symm
    rw [length, List.take_left, List.drop_left, if_pos same]

theorem not_start_of_stripPrefixNoCase? {p s : List Char} (none : stripPrefixNoCase? p s = none) {q r : List Char}
    (whole : s = q ++ r) : q.map Char.toLower ≠ p.map Char.toLower := by
  intro same
  have found := stripPrefixNoCase?_eq_some.mpr ⟨q, whole, same⟩
  rw [none] at found
  cases found

end Vitae.Text
