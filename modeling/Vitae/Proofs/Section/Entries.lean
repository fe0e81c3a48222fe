import Vitae.Proofs.Section.Form
import Vitae.Proofs.Tex.Tokens
import Mathlib.Data.List.Forall2

namespace Vitae

open Text Tex

/-! ## Lists and their items -/

def listWords : List String :=
  ["begin", "item", "end"]

/-- The text has nothing of a list in it, and no backslash at its end waits for the character behind it. -/
structure Listless (s : Tex) : Prop where
  ended : Ended s
  lacks : ∀ w ∈ listWords, Tex.lacks (control w) s = true

instance : DecidablePred Listless := fun s =>
  decidable_of_iff (Ended s ∧ ∀ w ∈ listWords, lacks (control w) s = true)
    ⟨fun h => ⟨h.1, h.2⟩, fun h => ⟨h.ended, h.lacks⟩⟩

namespace Listless

variable {s t : Tex}

theorem nil : Listless [] := by
  decide

theorem append (hs : Listless s) (ht : Listless t) : Listless (s ++ t) :=
  ⟨hs.ended.append ht.ended, fun w mem => lacks_append (hs.lacks w mem) (ht.lacks w mem)⟩

theorem count (h : Listless s) {w : String} (mem : w ∈ listWords) : (tokens s).count (.word w) = 0 :=
  count_tokens_of_lacks (k := .word w) (h.lacks w mem)

theorem escape (s : List Char) : Listless (escape s) := by
  have forms : ∀ w ∈ listWords, ∀ f ∈ escapedForms, Tex.lacks (control w) f.2 = true := by decide
  exact ⟨ended_escape s, fun w mem => Reserved.lacks_escape ⟨rfl, forms w mem⟩ s⟩

theorem detailText (detail : String) : Listless (detailText detail) := by
  have guard : Listless (braced []) := by decide
  unfold Vitae.detailText
  split
  · exact guard.append (escape _)
  · exact nil.append (escape _)

theorem datesText (start finish : String) : Listless (datesText start finish) := by
  have dash : Listless " -- ".toList := by decide
  unfold Vitae.datesText
  split
  · exact escape _
  · split
    · exact escape _
    · exact ((escape _).append dash).append (escape _)

end Listless

theorem Experience.listless_texts (e : Experience) : ∀ t ∈ e.texts, Listless t := by
  simp only [texts, List.mem_append, List.mem_filter, List.mem_cons, List.mem_map, List.not_mem_nil, or_false]
  rintro t (⟨rfl | rfl | rfl, -⟩ | ⟨detail, -, rfl⟩)
  · exact .escape _
  · exact .escape _
  · exact .datesText _ _
  · exact .detailText _

theorem Education.listless_texts (e : Education) : ∀ t ∈ e.texts, Listless t := by
  simp only [texts, List.mem_filter, List.mem_cons, List.not_mem_nil, or_false]
  rintro t ⟨rfl | rfl | rfl | rfl, -⟩
  · exact .escape _
  · exact .escape _
  · exact .datesText _ _
  · exact .escape _

theorem HeaderMarkup.listless_form {m : HeaderMarkup}
    (sides : ∀ f, Listless (m.around f).1 ∧ Listless (m.around f).2) (between : ∀ f g, Listless (m.between f g))
    (fs : List HeaderField) : ∀ t, some t ∈ m.form fs → Listless t := by
  fun_induction HeaderMarkup.form m fs with
  | case1 => simp
  | case2 f => simp [sides f]
  | case3 f g fs ih => simpa [or_imp, forall_and, sides f, between f g] using ih

def HeaderMarkup.Listless (m : HeaderMarkup) : Prop :=
  (∀ f, Vitae.Listless (m.around f).1 ∧ Vitae.Listless (m.around f).2) ∧ ∀ f g, Vitae.Listless (m.between f g)

namespace Layout

theorem listless_experienceMarkup (l : Layout) : l.experienceMarkup.Listless := by
  constructor
  · intro f
    cases l <;> cases f <;> decide
  · intro f g
    cases l <;> cases f <;> cases g <;> decide

theorem listless_educationMarkup (l : Layout) : l.educationMarkup.Listless := by
  constructor
  · intro f
    cases l <;> cases f <;> decide
  · intro f g
    cases l <;> cases f <;> cases g <;> decide

theorem listless_activitiesMarkup (l : Layout) :
    Listless l.activitiesMarkup.1 ∧ Listless l.activitiesMarkup.2 := by
  cases l <;> decide

end Layout

theorem Tex.Ended.apart {s t : Tex} (h : Ended s) (stop : startsLetter t = false) : Apart s t :=
  fun _ last => ⟨fun same => h (same ▸ last), fun _ => stop⟩

theorem tokens_plain_append {s : Tex} (plain : '\\' ∉ s) (t : Tex) : tokens (s ++ t) = s.map .char ++ tokens t := by
  induction s with
  | nil => rfl
  | cons c s ih =>
    rw [List.mem_cons, not_or] at plain
    rw [List.cons_append, tokens_cons (Ne.symm plain.1), ih plain.2]
    rfl

theorem count_word_around {w : String} (letters : w.toList.all Char.isAlpha = true) (ne : w ≠ "") {a b : Tex}
    (front : '\\' ∉ a) (behind : '\\' ∉ b) (stop : startsLetter b = false) (v : String) :
    (tokens (a ++ (control w ++ b))).count (.word v) = [Token.word w].count (.word v) := by
  have chars (s : Tex) : (s.map Token.char).count (.word v) = 0 := by simp [List.count_eq_zero]
  have rest := tokens_plain_append behind []
  rw [List.append_nil, tokens_nil, List.append_nil] at rest
  rw [tokens_plain_append front, tokens_control_append ne letters stop, rest, List.count_append, chars,
    List.count_cons, chars, List.count_cons, List.count_nil, Nat.zero_add]

theorem count_listing {items : List Tex} (listless : ∀ t ∈ items, Listless t) {w : String}
    (mem : w ∈ listWords) : (tokens (listing items)).count (.word w) = if items = [] then 0 else
      [Token.word "begin"].count (.word w) + items.length * [Token.word "item"].count (.word w) +
        [Token.word "end"].count (.word w) := by
  have opens : (tokens ("\n" ++ opening "itemize")).count (.word w) = [Token.word "begin"].count (.word w) :=
    count_word_around (w := "begin") (a := ['\n']) (b := braced "itemize") (by decide) (by decide) (by decide)
      (by decide) rfl w
  have closes : (tokens ("\n" ++ closing "itemize")).count (.word w) = [Token.word "end"].count (.word w) :=
    count_word_around (w := "end") (a := ['\n']) (b := braced "itemize") (by decide) (by decide) (by decide)
      (by decide) rfl w
  have marks : (tokens "\n  \\item ".toList).count (.word w) = [Token.word "item"].count (.word w) :=
    count_word_around (w := "item") (a := "\n  ".toList) (b := [' ']) (by decide) (by decide) (by decide)
      (by decide) rfl w
  have body : (tokens (items.flatMap ("\n  \\item ".toList ++ ·) ++ ("\n" ++ closing "itemize"))).count (.word w) =
      items.length * [Token.word "item"].count (.word w) + [Token.word "end"].count (.word w) := by
    clear opens
    induction items with
    | nil => simpa using closes
    | cons t items ih =>
      rw [List.forall_mem_cons] at listless
      have separator : Separator "\n  \\item ".toList := by decide
      have none : (tokens t).count (.word w) = 0 := listless.1.count mem
      have apart : Apart t (items.flatMap ("\n  \\item ".toList ++ ·) ++ ("\n" ++ closing "itemize")) := by
        refine listless.1.ended.apart ?_
        cases items <;> rfl
      rw [List.flatMap_cons, List.append_assoc, List.append_assoc, count_tokens_append (separator.apart _),
        count_tokens_append apart, marks, none, ih listless.2, List.length_cons, Nat.succ_mul]
      omega
  have front : Separator ("\n" ++ opening "itemize") := by decide
  unfold listing
  split
  · rw [tokens_nil, List.count_nil]
  · rw [count_tokens_append (front.apart _), opens, body, Nat.add_assoc]

theorem ended_listing (items : List Tex) : Ended (listing items) := by
  unfold listing
  split
  · exact nofun
  · have closes : Ended (closing "itemize") := by decide
    rw [← List.append_assoc, ← List.append_assoc]
    exact closes.behind (command_ne_nil _ _) _

/-! ### Entries of a layout -/

theorem Layout.separator_entries (l : Layout) :
    (Separator l.style.experience.separator ∧ Listless l.style.experience.separator) ∧
      Separator l.style.education.separator ∧ Listless l.style.education.separator := by
  cases l <;> decide

theorem Experience.listless_header (l : Layout) (e : Experience) :
    Listless (l.style.experience.header e.entryHeader) := by
  obtain ⟨sides, between⟩ := l.listless_experienceMarkup
  have texts := e.listless_texts
  have header := l.experienceMarkup.filled_write e.entryHeader e.entryHeader.shown
  rw [Experience.texts, ← dateRange_eq] at texts
  rw [l.write_experienceMarkup, EntryHeader.map_field_shown] at header
  refine header.all .nil .append (HeaderMarkup.listless_form sides between _) ?_
  exact fun t mem => texts t (List.mem_append_left _ mem)

theorem Experience.count_render (l : Layout) (e : Experience) {w : String} (mem : w ∈ listWords) :
    (tokens (e.render l.style.experience)).count (.word w) = if e.details = [] then 0 else
      [Token.word "begin"].count (.word w) + e.details.length * [Token.word "item"].count (.word w) +
        [Token.word "end"].count (.word w) := by
  have header := e.listless_header l
  have items : ∀ t ∈ e.details.map detailText, Listless t :=
    List.forall_mem_map.mpr fun detail _ => .detailText detail
  have apart : Apart (l.style.experience.header e.entryHeader) (listing (e.details.map detailText)) := by
    refine header.ended.apart ?_
    cases e.details <;> rfl
  rw [render_eq _ e l.listOpening_eq, count_tokens_append apart, header.count mem,
    count_listing items mem, Nat.zero_add, List.length_map]
  simp only [List.map_eq_nil_iff]

theorem Experience.ended_render (l : Layout) (e : Experience) : Ended (e.render l.style.experience) := by
  rw [render_eq _ e l.listOpening_eq]
  exact (e.listless_header l).ended.append (ended_listing _)

theorem Experience.count_renderAll (l : Layout) (es : List Experience) {w : String} (mem : w ∈ listWords) :
    (tokens (renderAll l.style.experience es)).count (.word w) =
      ((es.filter (!·.isBlank)).flatMap fun e => tokens (e.render l.style.experience)).count (.word w) := by
  obtain ⟨⟨separator, listless⟩, -⟩ := l.separator_entries
  have ended : ∀ p ∈ (es.filter (!·.isBlank)).map (render l.style.experience), Ended p :=
    List.forall_mem_map.mpr fun e _ => e.ended_render l
  rw [renderAll, count_tokens_join separator ended, listless.count mem, Nat.mul_zero,
    Nat.add_zero, List.flatMap_map]

theorem Experience.count_items (l : Layout) (es : List Experience) :
    (tokens (renderAll l.style.experience es)).count (.word "item") =
      ((es.filter (!·.isBlank)).flatMap details).length := by
  have item (e : Experience) : (tokens (e.render l.style.experience)).count (.word "item") = e.details.length := by
    rw [count_render l e (by decide)]
    split
    · case isTrue none => rw [none, List.length_nil]
    · exact (Nat.zero_add _).trans (Nat.mul_one _)
  rw [count_renderAll l es (by decide)]
  induction es.filter (!·.isBlank) with
  | nil => rfl
  | cons e es ih => rw [List.flatMap_cons, List.flatMap_cons, List.count_append, List.length_append, ih, item]

theorem Experience.count_lists (l : Layout) (es : List Experience) {w : String} (mem : w ∈ ["begin", "end"]) :
    (tokens (renderAll l.style.experience es)).count (.word w) =
      (es.filter (!·.isBlank)).countP (!·.details.isEmpty) := by
  have listed : w ∈ listWords := by
    simp only [listWords, List.mem_cons] at mem ⊢
    tauto
  have one : [Token.word "begin"].count (.word w) + [Token.word "end"].count (.word w) = 1 ∧
      [Token.word "item"].count (.word w) = 0 := by
    have both : ∀ w ∈ ["begin", "end"],
        [Token.word "begin"].count (.word w) + [Token.word "end"].count (.word w) = 1 ∧
          [Token.word "item"].count (.word w) = 0 := by
      decide
    exact both w mem
  rw [count_renderAll l es listed]
  induction es.filter (!·.isBlank) with
  | nil => rfl
  | cons e es ih =>
    rw [List.flatMap_cons, List.count_append, ih, count_render l e listed, List.countP_cons, one.2, Nat.mul_zero,
      Nat.add_zero, one.1, Nat.add_comm]
    cases e.details <;> rfl

theorem Education.listless_render (l : Layout) (e : Education) : Listless (e.render l.style.education) := by
  obtain ⟨sides, between⟩ := l.listless_educationMarkup
  obtain ⟨opens, closes⟩ := l.listless_activitiesMarkup
  refine (l.sets_education e).all .nil .append ?_ e.listless_texts
  intro m mem
  rcases List.mem_append.mp mem with header | line
  · exact HeaderMarkup.listless_form sides between _ m header
  · split at line
    · obtain rfl | rfl : m = l.activitiesMarkup.1 ∨ m = l.activitiesMarkup.2 := by simpa using line
      · exact opens
      · exact closes
    · cases line

theorem Education.listless_renderAll (l : Layout) (es : List Education) :
    Listless (renderAll l.style.education es) := by
  have entries : ∀ p ∈ (es.filter (!·.isBlank)).map (render l.style.education), Listless p :=
    List.forall_mem_map.mpr fun e _ => e.listless_render l
  unfold renderAll
  by_cases none : (es.filter (!·.isBlank)).map (render l.style.education) = []
  · rw [none]
    exact .nil
  · refine join_induction none entries fun p mem t rest => ?_
    exact ((entries p mem).append l.separator_entries.2.2).append rest

/-- Each layout sets the entries that are not blank, in order and with its separator between them. The only lists
are those of details, with an item for each of them. -/
theorem Layout.entries_inOrder (l : Layout) :
    (∀ es : List Experience, ∃ blocks,
      Experience.renderAll l.style.experience es = join l.style.experience.separator blocks ∧
      List.Forall₂ l.SetsExperience (es.filter (!·.isBlank)) blocks ∧
      (tokens (Experience.renderAll l.style.experience es)).count (.word "item") =
        ((es.filter (!·.isBlank)).flatMap Experience.details).length ∧
      (tokens (Experience.renderAll l.style.experience es)).count (.word "begin") =
        (es.filter (!·.isBlank)).countP (!·.details.isEmpty) ∧
      (tokens (Experience.renderAll l.style.experience es)).count (.word "end") =
        (es.filter (!·.isBlank)).countP (!·.details.isEmpty)) ∧
    ∀ es : List Education, ∃ blocks,
      Education.renderAll l.style.education es = join l.style.education.separator blocks ∧
      List.Forall₂ l.SetsEducation (es.filter (!·.isBlank)) blocks ∧
      listWords.map (fun w => (tokens (Education.renderAll l.style.education es)).count (.word w)) = [0, 0, 0] := by
  constructor
  · intro es
    refine ⟨_, rfl, ?_, Experience.count_items l es, Experience.count_lists l es (by decide),
      Experience.count_lists l es (by decide)⟩
    rw [List.forall₂_map_right_iff, List.forall₂_same]
    exact fun e _ => l.sets_experience e
  · intro es
    have listless := Education.listless_renderAll l es
    refine ⟨_, rfl, ?_, List.map_congr_left fun w mem => listless.count mem⟩
    rw [List.forall₂_map_right_iff, List.forall₂_same]
    exact fun e _ => l.sets_education e

end Vitae
