import Vitae.Proofs.Reading.Markup
import Vitae.Proofs.Text.Solid
import Vitae.Tex.Target

namespace Vitae.Tex

open Text

variable {g : Dialect}

/-! ## Escaped text -/

theorem Dialect.mem_escapeWords (g : Dialect) {w : String} (h : w ∈ escapeWords) : w ∈ g.commands := by
  simp [commands, h]

theorem Dialect.mem_sharedWords (g : Dialect) {w : String} (h : w ∈ sharedWords) : w ∈ g.commands := by
  simp [commands, h]

theorem Markup.escapeChar (c : Char) : Markup g (escapeChar c) := by
  unfold Tex.escapeChar
  split
  case h_11 =>
    refine .plain ?_
    simp_all [isPlain_iff, activeChars]
  case h_1 | h_9 | h_10 =>
    exact .command (g.mem_escapeWords (by decide)) Markup.nil.phrase
  all_goals exact .symbol (by decide)

theorem Markup.escape (s : List Char) : Markup g (escape s) :=
  .flatMap fun c _ => .escapeChar c

theorem solid_escapeChar {c : Char} (h : isBlank c = false) : Solid (escapeChar c) := by
  unfold escapeChar
  split
  case h_11 => exact ⟨by simpa using h, by simpa [EndsVisible] using h⟩
  all_goals exact ⟨fun _ h => by cases h; rfl, fun _ h => by cases h; rfl⟩

theorem solid_escape {s : List Char} (h : Solid s) : Solid (escape s) :=
  h.flatMap escapeChar_ne_nil fun _ => solid_escapeChar

/-! ## Targets of links -/

namespace Target

theorem hexDigit_plain : ∀ n < 16, (hexDigit n ≠ '%' ∧ hexDigit n ≠ '#') ∧ hexDigit n ∉ unsafeChars ∧
    isBlank (hexDigit n) = false ∧ isControl (hexDigit n) = false := by
  decide

theorem hardened_percentByte (b : UInt8) : Hardened (percentByte b) := by
  have high := hexDigit_plain (b.toNat / 16) (by have := b.toNat_lt; omega)
  have low := hexDigit_plain (b.toNat % 16) (by omega)
  exact .escaped (.inl rfl) (.plain high.1 high.2.1 high.2.2 (.plain low.1 low.2.1 low.2.2 .nil))

theorem Hardened.flatMap {α : Type} {l : List α} {f : α → Tex} (h : ∀ x ∈ l, Hardened (f x)) :
    Hardened (l.flatMap f) := by
  induction l with
  | nil => exact .nil
  | cons x l ih =>
      rw [List.forall_mem_cons] at h
      exact h.1.append (ih h.2)

theorem hardened_encodeChar {c : Char} (h : isControl c = false) : Hardened (encodeChar c) := by
  unfold encodeChar
  split
  · exact .escaped (.inl rfl) .nil
  · split
    · exact .escaped (.inr rfl) .nil
    · split
      · exact .flatMap fun b _ => hardened_percentByte b
      · rename_i percent hash keep
        simp only [Bool.or_eq_true, not_or, Bool.not_eq_true, List.contains_eq_mem,
          decide_eq_false_iff_not] at keep
        exact .plain ⟨percent, hash⟩ keep.1 ⟨keep.2, h⟩ .nil

theorem hardened_encode {s : List Char} (h : ∀ c ∈ s, isControl c = false) : Hardened (encode s) :=
  .flatMap fun c mem => hardened_encodeChar (h c mem)

theorem isControl_of_mem_clean {s : List Char} : ∀ c ∈ clean s, isControl c = false := by
  intro c mem
  simpa using (List.mem_filter.mp mem).2

theorem hardened_url? {s : List Char} {t : Tex} (h : url? s = some t) : Hardened t := by
  unfold url? at h
  simp only at h
  split at h
  · cases h
  · cases h
    refine hardened_encode ?_
    split
    · exact isControl_of_mem_clean
    · have scheme : "https://".toList.all (!isControl ·) = true := by decide
      exact List.forall_mem_append.mpr ⟨by simpa using List.all_eq_true.mp scheme, isControl_of_mem_clean⟩

theorem mem_of_stripPrefixNoCase? {p s r : List Char} (h : stripPrefixNoCase? p s = some r) {c : Char}
    (mem : c ∈ r) : c ∈ s := by
  rw [stripPrefixNoCase?_eq] at h
  split at h
  · cases h
    exact List.mem_of_mem_drop mem
  · cases h

theorem hardened_mailto? {s : List Char} {t : Tex} (h : mailto? s = some t) : Hardened t := by
  unfold mailto? at h
  simp only at h
  split at h
  · cases h
  · cases h
    have scheme : "mailto:".toList.all (!isControl ·) = true := by decide
    have start : Hardened "mailto:".toList :=
      hardened_encode (s := "mailto:".toList) (by simpa using List.all_eq_true.mp scheme)
    refine start.append (hardened_encode fun c mem => isControl_of_mem_clean (s := s) c ?_)
    have inner := mem_of_mem_trim mem
    cases cut : stripPrefixNoCase? "mailto:".toList (clean s) with
    | none =>
        rw [cut] at inner
        exact inner
    | some rest =>
        rw [cut] at inner
        exact mem_of_stripPrefixNoCase? cut inner

end Target

/-! ## Blocks -/

/-- Markup that does not end in a blank. -/
structure Passage (g : Dialect) (s : Tex) : Prop where
  markup : Markup g s
  last : EndsVisible s

/-- Markup that neither starts nor ends with a blank. -/
structure Block (g : Dialect) (s : Tex) : Prop where
  markup : Markup g s
  solid : Solid s

theorem Block.passage {s : Tex} (h : Block g s) : Passage g s :=
  ⟨h.markup, h.solid.last⟩

theorem Block.nil : Block g [] :=
  ⟨.nil, .nil⟩

theorem Block.escapeTrimmed (s : List Char) : Block g (escapeTrimmed s) :=
  ⟨.escape _, solid_escape (solid_trim s)⟩

theorem solid_braced (s : Tex) : Solid (braced s) :=
  Solid.around (s := ['{']) (t := ['}']) ⟨fun _ h => by cases h; rfl, fun _ h => by cases h; rfl⟩
    (fun _ h => by cases h; rfl) (by simp) (by simp) s

theorem solid_command (w : String) (s : Tex) : Solid (command w s) := by
  refine ⟨?_, (solid_braced s).last.behind (by simp [braced]) _⟩
  rintro _ ⟨⟩
  rfl

@[simp] theorem braced_ne_nil (s : Tex) : braced s ≠ [] := by
  simp [braced]

@[simp] theorem command_ne_nil (w : String) (s : Tex) : command w s ≠ [] := by
  simp [command, control]

theorem solid_environment (n : String) (start body : Tex) : Solid (environment n start body) := by
  have ends := (solid_command "begin" n).around (solid_command "end" n).last (command_ne_nil _ _)
    (command_ne_nil _ _) (start ++ "\n" ++ body ++ "\n")
  simpa [environment, opening, closing] using ends

@[simp] theorem environment_ne_nil (n : String) (start body : Tex) : environment n start body ≠ [] := by
  simp [environment, opening, command, control]

theorem Block.braced {s : Tex} (h : Phrase g s) : Block g (braced s) :=
  ⟨.braced h, solid_braced s⟩

theorem Block.command {w : String} {s : Tex} (mem : w ∈ g.commands) (h : Phrase g s) :
    Block g (command w s) :=
  ⟨.command mem h, solid_command w s⟩

theorem Block.starred {w n : String} {s : Tex} (mem : w ∈ g.commands) (name : n = w ++ "*")
    (h : Phrase g s) : Block g (Tex.command n s) :=
  ⟨.starred mem name h, solid_command n s⟩

theorem Block.environment {n : String} {start body : Tex} (mem : n ∈ blockNames)
    (hs : Markup g start) (hb : Phrase g body) : Block g (environment n start body) :=
  ⟨.environment mem hs hb, solid_environment n start body⟩

theorem Block.columns {n body : Tex} (digits : n.all Char.isDigit = true) (h : Phrase g body)
    (option : startsOption body = false) :
    Block g (Tex.environment "multicols" (Tex.braced n) body) :=
  ⟨.columns digits h option, solid_environment _ _ _⟩

theorem Block.around {s t m : Tex} (hs : Block g s) (hm : Markup g m) (ht : Block g t) (neS : s ≠ [])
    (neT : t ≠ []) : Block g (s ++ m ++ t) :=
  ⟨(hs.markup.append hm).append ht.markup, hs.solid.around ht.solid.last neS neT m⟩

theorem join_ne_nil {separator : Tex} {parts : List Tex} (h : ∀ p ∈ parts, p ≠ [])
    (ne : parts ≠ []) : join separator parts ≠ [] := by
  cases parts with
  | nil => exact absurd rfl ne
  | cons p parts => simp [join_cons, h p List.mem_cons_self]

theorem endsVisible_join {separator : Tex} {parts : List Tex}
    (h : ∀ p ∈ parts, EndsVisible p ∧ p ≠ []) : EndsVisible (join separator parts) := by
  cases parts with
  | nil => exact Solid.nil.last
  | cons p parts =>
      refine (join_induction (P := fun t => EndsVisible t ∧ t ≠ []) (List.cons_ne_nil p parts) h ?_).1
      exact fun q _ t behind => ⟨behind.1.behind behind.2 _, by simp [behind.2]⟩

theorem solid_join {separator : Tex} {parts : List Tex} (h : ∀ p ∈ parts, Solid p ∧ p ≠ []) :
    Solid (join separator parts) := by
  refine ⟨?_, endsVisible_join fun p mem => ⟨(h p mem).1.last, (h p mem).2⟩⟩
  cases parts with
  | nil => exact Solid.nil.head
  | cons p parts =>
      obtain ⟨solid, ne⟩ := h p List.mem_cons_self
      rw [join_cons, List.head?_append_of_ne_nil _ ne]
      exact solid.head

theorem Passage.join {separator : Tex} {parts : List Tex} (between : Markup g separator)
    (h : ∀ p ∈ parts, Passage g p ∧ p ≠ []) : Passage g (join separator parts) :=
  ⟨.join between fun p mem => (h p mem).1.markup,
    endsVisible_join fun p mem => ⟨(h p mem).1.last, (h p mem).2⟩⟩

theorem Block.join {separator : Tex} {parts : List Tex} (between : Markup g separator)
    (h : ∀ p ∈ parts, Block g p ∧ p ≠ []) : Block g (join separator parts) :=
  ⟨.join between fun p mem => (h p mem).1.markup,
    solid_join fun p mem => ⟨(h p mem).1.solid, (h p mem).2⟩⟩

theorem Block.joinPresent {separator : Tex} {parts : List Tex} (between : Markup g separator)
    (h : ∀ p ∈ parts, Block g p) : Block g (joinPresent separator parts) :=
  .join between (forall_mem_present fun p mem ne => ⟨h p mem, ne⟩)

theorem Block.firm {s : Tex} (h : Block g s) (option : startsOption s = false) (ne : s ≠ []) : Firm s :=
  firm_of_not_allBlank option (allBlank_of_solid h.solid ne)

theorem startsOption_joinPresent {separator : Tex} {parts : List Tex} (h : ∀ p ∈ parts, Block g p)
    (option : ∀ p ∈ parts, startsOption p = false) :
    startsOption (Tex.joinPresent separator parts) = false :=
  startsOption_join (forall_mem_present fun p mem ne => (h p mem).firm (option p mem) ne)

theorem Block.joinPresentLines {parts : List Tex} (h : ∀ p ∈ parts, Block g p)
    (option : g.guarded → ∀ p ∈ parts, startsOption p = false) :
    Block g (Tex.joinPresent "\\\\\n" parts) := by
  refine ⟨.joinPresentLines (fun p mem => (h p mem).markup) fun guarded p mem ne => ?_,
    solid_join (forall_mem_present fun p mem ne => ⟨(h p mem).solid, ne⟩)⟩
  exact (h p mem).firm (option guarded p mem) ne

theorem Block.present {f : Tex → Tex} {s : Tex} (h : s ≠ [] → Block g (f s)) : Block g (present f s) := by
  unfold Tex.present
  split
  · exact .nil
  · rename_i ne
    exact h (by simpa using ne)

theorem Block.styled {w : String} {s : Tex} (mem : w ∈ g.commands) (h : Markup g s) :
    Block g (styled w s) :=
  .present fun _ => .command mem h.phrase

theorem Block.coloured {colour : String} {s : Tex} (mem : "textcolor" ∈ g.commands)
    (plain : colour.toList.all isPlain = true) (h : Markup g s) : Block g (coloured colour s) := by
  refine .present fun _ => ?_
  have value := Block.around (.command mem (Markup.text plain).phrase) .nil (Block.braced h.phrase)
    (command_ne_nil _ _) (braced_ne_nil _)
  simpa using value

theorem Block.grouped {t s : Tex} (declarations : Markup g (t ++ " ")) (h : Markup g s) :
    Block g (grouped t s) :=
  .present fun _ => .braced (declarations.append h).phrase

end Vitae.Tex
