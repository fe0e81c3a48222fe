import Vitae.Proofs.Reading.Step

namespace Vitae.Tex

/-- Text that a reading gets through whatever stands behind it. -/
def Markup (g : Dialect) (s : Tex) : Prop :=
  ∀ fs t, Reads g ⟨fs, s ++ t⟩ ⟨fs, t⟩

def Neutral (t : Tex) : Prop :=
  startsLetter t = false ∧ startsOption t = false

/-- Text that a reading gets through if a neutral text stands behind it. -/
def Phrase (g : Dialect) (s : Tex) : Prop :=
  ∀ fs t, Neutral t → Reads g ⟨fs, s ++ t⟩ ⟨fs, t⟩

def Firm (s : Tex) : Prop :=
  ∀ t, startsOption (s ++ t) = false

variable {g : Dialect} {s t : Tex}

/-! ## Starts of texts -/

theorem Neutral.append (hs : Neutral s) (ht : Neutral t) : Neutral (s ++ t) := by
  refine ⟨?_, by simp [startsOption_append, hs.2, ht.2]⟩
  cases s with
  | nil => exact ht.1
  | cons c s => exact hs.1

theorem Firm.startsOption (h : Firm s) : startsOption s = false := by
  simpa using h []

theorem Firm.ne_nil (h : Firm s) : s ≠ [] := by
  rintro rfl
  cases h ['[']

theorem Firm.append (h : Firm s) (t : Tex) : Firm (s ++ t) := by
  intro k
  rw [List.append_assoc]
  exact h (t ++ k)

theorem firm_of_not_allBlank (option : Tex.startsOption s = false)
    (visible : Text.allBlank s = false) : Firm s := by
  intro t
  have stays : (Text.trimStart s).isEmpty = false := by
    cases cut : Text.trimStart s with
    | nil =>
        have blank : Text.allBlank s = true := by
          rw [← Text.trim_eq_nil_iff, Text.trim, cut]
          rfl
        rw [blank] at visible
        cases visible
    | cons c rest => rfl
  rw [startsOption_append, stays]
  exact option

theorem firm_guardLineStart (visible : Text.allBlank s = false) : Firm (guardLineStart s) := by
  unfold guardLineStart
  split
  · exact fun _ => rfl
  · rename_i option
    exact firm_of_not_allBlank (by simpa using option) visible

theorem startsOption_guardLineStart (s : Tex) : startsOption (guardLineStart s) = false := by
  unfold guardLineStart
  split
  · rfl
  · rename_i option
    simpa using option

/-! ## Markup and phrases -/

theorem Markup.phrase (h : Markup g s) : Phrase g s :=
  fun fs t _ => h fs t

theorem Markup.nil : Markup g [] :=
  fun _ _ => .refl

theorem Markup.append (hs : Markup g s) (ht : Markup g t) : Markup g (s ++ t) := by
  intro fs k
  rw [List.append_assoc]
  exact (hs fs (t ++ k)).trans (ht fs k)

theorem Markup.append_phrase (hs : Markup g s) (ht : Phrase g t) : Phrase g (s ++ t) := by
  intro fs k neutral
  rw [List.append_assoc]
  exact (hs fs (t ++ k)).trans (ht fs k neutral)

theorem Phrase.append (hs : Phrase g s) (ht : Phrase g t) (neutral : Neutral t) :
    Phrase g (s ++ t) := by
  intro fs k neutralRest
  rw [List.append_assoc]
  exact (hs fs (t ++ k) (neutral.append neutralRest)).trans (ht fs k neutralRest)

theorem Markup.flatMap {α : Type} {l : List α} {f : α → Tex} (h : ∀ x ∈ l, Markup g (f x)) :
    Markup g (l.flatMap f) := by
  induction l with
  | nil => exact .nil
  | cons x l ih =>
      rw [List.forall_mem_cons] at h
      exact h.1.append (ih h.2)

theorem Phrase.flatMap {α : Type} {l : List α} {f : α → Tex} (h : ∀ x ∈ l, Phrase g (f x))
    (neutral : ∀ x ∈ l, ∀ t, Neutral (f x ++ t)) : Phrase g (l.flatMap f) := by
  induction l with
  | nil => exact Markup.nil.phrase
  | cons x l ih =>
      rw [List.forall_mem_cons] at h neutral
      refine h.1.append (ih h.2 neutral.2) ?_
      cases l with
      | nil => exact ⟨rfl, rfl⟩
      | cons y l => exact neutral.2 y List.mem_cons_self _

theorem Markup.plain {c : Char} (self : isPlain c = true) : Markup g [c] :=
  fun _ _ => .single (.plain self)

theorem Markup.text (plain : s.all isPlain = true) : Markup g s := by
  have chars : Markup g (s.flatMap fun c => [c]) :=
    .flatMap fun c mem => .plain (List.all_eq_true.mp plain c mem)
  simpa using chars

theorem Markup.symbol {c : Char} (mem : c ∈ characterSymbols) : Markup g ['\\', c] :=
  fun _ _ => .single (.symbol mem)

theorem Phrase.word {w : String} (mem : w ∈ g.commands) : Phrase g (control w) :=
  fun _ _ neutral => .single (.word mem neutral.1)

theorem Markup.word {w : String} (mem : w ∈ g.commands) (h : Markup g s)
    (stop : s.head?.any (!·.isAlpha) = true) : Markup g (control w ++ s) := by
  intro fs t
  have apart : startsLetter (s ++ t) = false := by
    cases s with
    | nil => cases stop
    | cons c s => simpa [startsLetter] using stop
  rw [List.append_assoc]
  exact .head (.word mem apart) (h fs t)

theorem Markup.braced (h : Phrase g s) : Markup g (braced s) := by
  intro fs t
  rw [Tex.braced, List.cons_append, List.append_assoc]
  exact .head .openGroup ((h _ _ ⟨rfl, rfl⟩).tail .closeGroup)

theorem Markup.bracketed (h : Phrase g s) : Markup g (bracketed s) := by
  intro fs t
  rw [Tex.bracketed, List.cons_append, List.append_assoc]
  exact .head (.plain rfl) ((h _ _ ⟨rfl, rfl⟩).tail (.plain rfl))

theorem Markup.command {w : String} (mem : w ∈ g.commands) (h : Phrase g s) :
    Markup g (command w s) :=
  .word mem (.braced h) rfl

theorem Markup.option {w : String} (mem : w ∈ g.commands) (h : Phrase g s) :
    Markup g (control w ++ Tex.bracketed s) :=
  .word mem (.bracketed h) rfl

theorem Markup.starred {w n : String} (mem : w ∈ g.commands) (name : n = w ++ "*") (h : Phrase g s) :
    Markup g (Tex.command n s) := by
  have star : Markup g ("*".toList ++ Tex.braced s) := (Markup.text rfl).append (.braced h)
  have starred := Markup.word mem star rfl
  simpa [name, Tex.command, control] using starred

theorem Markup.spaced {w : String} (mem : w ∈ g.commands) :
    Markup g (" ".toList ++ control w ++ " ".toList) := by
  rw [List.append_assoc]
  exact (Markup.text rfl).append (.word mem (.text rfl) rfl)

/-! ## Combinators -/

theorem Markup.joinLines {separator : Tex} {parts : List Tex} (h : ∀ p ∈ parts, Markup g p)
    (rest : ∀ p ∈ parts, Markup g (separator ++ p)) : Markup g (join separator parts) := by
  cases parts with
  | nil => exact .nil
  | cons p parts =>
      rw [join_cons]
      rw [List.forall_mem_cons] at h rest
      exact h.1.append (.flatMap rest.2)

theorem Phrase.joinLines {separator : Tex} {parts : List Tex} (h : ∀ p ∈ parts, Phrase g p)
    (rest : ∀ p ∈ parts, Phrase g (separator ++ p))
    (neutral : ∀ p ∈ parts, ∀ t, Neutral (separator ++ p ++ t)) :
    Phrase g (join separator parts) := by
  cases parts with
  | nil => exact Markup.nil.phrase
  | cons p parts =>
      rw [join_cons]
      rw [List.forall_mem_cons] at h rest neutral
      refine h.1.append (.flatMap rest.2 neutral.2) ?_
      cases parts with
      | nil => exact ⟨rfl, rfl⟩
      | cons q parts => exact neutral.2 q List.mem_cons_self _

theorem Markup.join {separator : Tex} {parts : List Tex} (between : Markup g separator)
    (h : ∀ p ∈ parts, Markup g p) : Markup g (join separator parts) :=
  .joinLines h fun p mem => between.append (h p mem)

theorem forall_mem_pair {P : Tex → Prop} (hs : P s) (ht : P t) : ∀ p ∈ [s, t], P p := by
  simp [hs, ht]

theorem forall_mem_present {P : Tex → Prop} {parts : List Tex} (h : ∀ p ∈ parts, p ≠ [] → P p) :
    ∀ p ∈ parts.filter (!·.isEmpty), P p := by
  intro p mem
  simp only [List.mem_filter, Bool.not_eq_true', List.isEmpty_eq_false_iff] at mem
  exact h p mem.1 mem.2

theorem joinPresent_singleton (separator s : Tex) : Tex.joinPresent separator [s] = s := by
  cases s <;> simp [Tex.joinPresent, Tex.join, List.intercalate]

theorem joinPresent_pair (separator : Tex) (hs : s ≠ []) (ht : t ≠ []) :
    Tex.joinPresent separator [s, t] = s ++ separator ++ t := by
  simp [Tex.joinPresent, Tex.join, List.intercalate, hs, ht]

def behind (separator first rest : Tex) : Tex :=
  if first.isEmpty || rest.isEmpty then rest else separator ++ rest

theorem joinPresent_cons (separator s : Tex) (parts : List Tex) :
    Tex.joinPresent separator (s :: parts) = s ++ behind separator s (Tex.joinPresent separator parts) := by
  by_cases empty : s = []
  · rw [empty, joinPresent_cons_nil]
    rfl
  · have kept : (s :: parts).filter (!·.isEmpty) = s :: parts.filter (!·.isEmpty) := by
      simp [empty]
    unfold Tex.joinPresent
    rw [kept]
    cases others : parts.filter (!·.isEmpty) with
    | nil => simp [Tex.join, behind]
    | cons q rest =>
      have present : q ≠ [] := by
        have mem : q ∈ parts.filter (!·.isEmpty) := by simp [others]
        simpa using (List.mem_filter.mp mem).2
      have filled : Tex.join separator (q :: rest) ≠ [] := by simp [join_cons, present]
      simp [join_cons_cons, behind, empty, filled]

theorem startsOption_joinPresent_cons {separator : Tex} {parts : List Tex} (h : Firm s) :
    startsOption (Tex.joinPresent separator (s :: parts)) = false := by
  have kept : (s :: parts).filter (!·.isEmpty) = s :: parts.filter (!·.isEmpty) := by
    simp [h.ne_nil]
  rw [Tex.joinPresent, kept, join_cons]
  exact h _

theorem Markup.joinPresent {separator : Tex} {parts : List Tex} (between : Markup g separator)
    (h : ∀ p ∈ parts, Markup g p) : Markup g (joinPresent separator parts) :=
  .join between (forall_mem_present fun p mem _ => h p mem)

theorem Markup.joinPresentLines {parts : List Tex} (h : ∀ p ∈ parts, Markup g p)
    (firm : g.guarded → ∀ p ∈ parts, p ≠ [] → Firm p) :
    Markup g (Tex.joinPresent "\\\\\n" parts) := by
  refine .joinLines (forall_mem_present fun p mem _ => h p mem)
    (forall_mem_present fun p mem ne => ?_)
  intro fs t
  -- An option is looked for only where breaks are guarded, and there the part is firm.
  exact .head (.lineBreak fun guarded => firm guarded p mem ne t) (h p mem fs t)

theorem startsOption_join {separator : Tex} {parts : List Tex} (h : ∀ p ∈ parts, Firm p) :
    startsOption (Tex.join separator parts) = false := by
  cases parts with
  | nil => rfl
  | cons p parts =>
      rw [join_cons]
      exact h p List.mem_cons_self _

theorem Markup.present {f : Tex → Tex} (h : s ≠ [] → Markup g (f s)) : Markup g (present f s) := by
  unfold Tex.present
  split
  · exact .nil
  · rename_i ne
    exact h (by simpa using ne)

theorem present_eq_nil_iff {f : Tex → Tex} (h : ∀ v, f v ≠ []) : present f s = [] ↔ s = [] := by
  unfold Tex.present
  split <;> simp_all

@[simp] theorem styled_eq_nil_iff {w : String} : styled w s = [] ↔ s = [] :=
  present_eq_nil_iff fun _ => by simp [command, control]

@[simp] theorem coloured_eq_nil_iff {colour : String} : coloured colour s = [] ↔ s = [] :=
  present_eq_nil_iff fun _ => by simp [command, control]

@[simp] theorem grouped_eq_nil_iff : grouped t s = [] ↔ s = [] :=
  present_eq_nil_iff fun _ => by simp [braced]

theorem startsOption_present {f : Tex → Tex} (h : ∀ v, startsOption (f v) = false) :
    startsOption (present f s) = false := by
  unfold Tex.present
  split
  · rfl
  · exact h s

@[simp] theorem startsOption_styled {w : String} : startsOption (styled w s) = false :=
  startsOption_present fun _ => rfl

theorem firm_styled {w : String} (ne : s ≠ []) : Firm (styled w s) := by
  intro t
  rw [Tex.styled, Tex.present, if_neg (by simpa using ne)]
  rfl

@[simp] theorem startsOption_coloured {colour : String} : startsOption (coloured colour s) = false :=
  startsOption_present fun _ => rfl

@[simp] theorem startsOption_grouped : startsOption (grouped t s) = false :=
  startsOption_present fun _ => rfl

theorem Markup.breakLine {space : String} (plain : space.toList.all isPlain = true) :
    Markup g (breakLine space) := by
  intro fs t
  have rest : Markup g (Tex.bracketed space ++ "\n".toList) :=
    (Markup.bracketed (Markup.text plain).phrase).append (.text rfl)
  have read := rest fs t
  simp only [Tex.bracketed, List.cons_append] at read
  simpa [Tex.breakLine, Tex.bracketed] using read.head .spacedBreak

theorem Markup.enclosed {n : String} (mem : n ∈ blockNames) (h : Phrase g s) :
    Markup g (opening n ++ s ++ closing n) := by
  intro fs t
  rw [List.append_assoc, List.append_assoc]
  exact .head (.openBlock mem)
    ((h _ _ ⟨rfl, rfl⟩).tail (.close (List.mem_cons_of_mem _ mem)))

theorem Markup.environment {n : String} {start body : Tex} (mem : n ∈ blockNames)
    (hs : Markup g start) (hb : Phrase g body) : Markup g (environment n start body) := by
  have line : Markup g "\n".toList := .text rfl
  have inner := ((hs.append line).append_phrase hb).append line.phrase ⟨rfl, rfl⟩
  simpa only [Tex.environment, List.append_assoc] using Markup.enclosed mem inner

theorem Markup.columns {n body : Tex} (digits : n.all Char.isDigit = true) (h : Phrase g body)
    (option : startsOption body = false) :
    Markup g (Tex.environment "multicols" (Tex.braced n) body) := by
  intro fs t
  have line : Markup g "\n".toList := .text rfl
  have inner := (line.append_phrase h).append line.phrase ⟨rfl, rfl⟩
  have read := (inner (.environment "multicols" :: fs) (closing "multicols" ++ t) ⟨rfl, rfl⟩).tail
    (.close List.mem_cons_self)
  have guard : startsOption ("\n".toList ++ body ++ "\n".toList ++ (closing "multicols" ++ t)) = false := by
    rw [List.append_assoc, List.append_assoc]
    change startsOption (body ++ _) = false
    rw [startsOption_append, option]
    split <;> rfl
  simpa only [Tex.environment, List.append_assoc] using read.head (.openColumns digits guard)

theorem Markup.href {u : Tex} (hard : Target.Hardened u) (h : Phrase g s) :
    Markup g (Target.href u s) := by
  intro fs t
  have label := Markup.braced h fs t
  simp only [Tex.braced, List.cons_append] at label
  simpa [Target.href, linkStart, Tex.braced] using label.head (.target hard)

def IsItem (g : Dialect) (i : Tex) : Prop :=
  ∃ x, i = item x ∧ Markup g x ∧ startsOption x = false

theorem IsItem.phrase {i : Tex} (h : IsItem g i) : Phrase g i := by
  obtain ⟨x, rfl, markup, option⟩ := h
  intro fs t neutral
  have guard : startsOption (" ".toList ++ x ++ t) = false := by
    change startsOption (x ++ t) = false
    rw [startsOption_append, option, neutral.2]
    simp
  have behind := ((Markup.text rfl : Markup g " ".toList).append markup) fs t
  exact ((Markup.text rfl : Markup g "  ".toList) fs _).trans (behind.head (.item rfl guard))

theorem Phrase.items {items : List Tex} (h : ∀ i ∈ items, IsItem g i) :
    Phrase g (Tex.join "\n" items) := by
  refine .joinLines (fun i mem => (h i mem).phrase)
    (fun i mem => (Markup.text rfl : Markup g "\n".toList).append_phrase (h i mem).phrase) ?_
  -- Each line starts with `\item`, so none is read as an option of the one before.
  intro i mem t
  obtain ⟨x, rfl, -⟩ := h i mem
  exact ⟨rfl, rfl⟩

theorem Markup.itemize {items : List Tex} (h : ∀ i ∈ items, IsItem g i) :
    Markup g (itemize items) := by
  unfold Tex.itemize
  split
  · exact .nil
  · exact .environment (by decide) .nil (.items h)

theorem Markup.guardLineStart (h : Markup g s) : Markup g (guardLineStart s) := by
  unfold Tex.guardLineStart
  split
  · exact (Markup.braced Markup.nil.phrase).append h
  · exact h

end Vitae.Tex
