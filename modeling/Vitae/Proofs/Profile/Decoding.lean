import Vitae.Profile.Parse
import Vitae.Proofs.Json.Decoding

namespace Vitae.Profile

open Json Json.Reader Text

/-! ## Shapes -/

mutual

def Shape.ofWritten? : {α : Type} → Shape α → Written → Option α
  | _, .text => fun v => v.string?.map String.ofList
  | _, .choice all name => Written.choice? all name
  | _, .list item => Written.list? item.ofWritten?
  | _, .keyed all name item => Written.keyed? (Written.named? all name) item.ofWritten?
  | _, .record _ closed empty fields => Written.record? closed fields.ofWritten? empty
  | _, .mapped shape read _ => fun v => (shape.ofWritten? v).map read

def Fields.ofWritten? : {α : Type} → Fields α → FieldDecoders α
  | _, .nil => []
  | _, .cons name shape _ set rest => (name, fun a v => (shape.ofWritten? v).map (set a)) :: rest.ofWritten?

end

mutual

theorem Shape.decides : {α : Type} → (shape : Shape α) → Decides shape.readJson shape.ofWritten?
  | _, .text => decides_text
  | _, .choice all name => decides_choice all name
  | _, .list item => decides_list item.decides
  | _, .keyed all name item => decides_keyed (settles_chosen all name) item.decides
  | _, .record name closed empty fields => decides_record fields.beside name closed empty
  | _, .mapped shape read _ => fun v g k => (shape.decides v g k).map read

theorem Fields.beside : {α : Type} → (fields : Fields α) → Beside fields.readJson fields.ofWritten?
  | _, .nil => .nil
  | _, .cons _ shape _ set rest =>
    .cons ⟨rfl, fun a v g k => (shape.decides v g k).map (set a)⟩ rest.beside

end

theorem Shape.ofJsonText_eq {α : Type} (shape : Shape α) (front back : Gap) (v : Written) :
    (∀ a, shape.ofWritten? v = some a → shape.ofJsonText (front.1 ++ (v.text ++ back.1)) = .ok a) ∧
      (shape.ofWritten? v = none → ∃ failure, shape.ofJsonText (front.1 ++ (v.text ++ back.1)) = .error failure) := by
  have settled := shape.decides v front back.1
  constructor
  · intro a decoded
    rw [decoded] at settled
    obtain ⟨q, read⟩ := settled .start
    obtain ⟨q', skipped⟩ := skipWhile_eq isSpace back.1 q
    have none : (back.1 ++ []).dropWhile isSpace = [] := List.dropWhile_append_of_pos back.2
    rw [List.append_nil] at none
    rw [Shape.ofJsonText, Cursor.ofText, read]
    change (if (Cursor.skipWhile isSpace ⟨back.1, q⟩).rest.isEmpty then _ else _) = _
    rw [skipped, none]
    rfl
  · intro missing
    rw [missing] at settled
    obtain ⟨failure, failed⟩ := settled .start
    exact ⟨failure, by rw [Shape.ofJsonText, Cursor.ofText, failed]; rfl⟩

/-! ## Profiles -/

structure Sheet where
  /-- How many byte order marks stand in front. -/
  marks : Nat
  front : Gap
  members : List (Head × Written)
  last : Gap
  back : Gap

namespace Sheet

def value (s : Sheet) : Written :=
  .object s.members s.last

def text (s : Sheet) : List Char :=
  List.replicate s.marks Format.byteOrderMark ++ (s.front.1 ++ (s.value.text ++ s.back.1))

theorem dropMarks_text (s : Sheet) : Format.dropMarks s.text = s.front.1 ++ (s.value.text ++ s.back.1) := by
  have unmarked : ∀ c ∈ (s.front.1 ++ (s.value.text ++ s.back.1)).head?, (c == Format.byteOrderMark) = false := by
    obtain ⟨marks, ⟨_ | ⟨b, front⟩, blank⟩, members, last, back⟩ := s
    · rintro c ⟨⟩
      decide
    · rintro c ⟨⟩
      have space := blank b List.mem_cons_self
      simp only [isSpace, Bool.or_eq_true, decide_eq_true_eq] at space
      rcases space with ((rfl | rfl) | rfl) | rfl <;> decide
  rw [Format.dropMarks, text, List.dropWhile_append_of_pos (by simp)]
  cases rest : s.front.1 ++ (s.value.text ++ s.back.1) with
  | nil => rfl
  | cons c t =>
    rw [rest] at unmarked
    exact List.dropWhile_cons_of_neg (by simp [unmarked c rfl])

theorem parse_eq (s : Sheet) : parse .json s.text =
    (Shape.document.ofJsonText (s.front.1 ++ (s.value.text ++ s.back.1))).mapError .json := by
  have visible : ¬allBlank (s.front.1 ++ (s.value.text ++ s.back.1)) = true := by
    intro blank
    have brace : '\x7b' ∈ s.front.1 ++ (s.value.text ++ s.back.1) := by
      simp [value, Written.text]
    exact Bool.noConfusion (List.all_eq_true.mp blank _ brace)
  rw [parse, dropMarks_text, if_neg visible]

theorem parse_iff (s : Sheet) :
    (∀ d, parse .json s.text = .ok d ↔ Shape.document.ofWritten? s.value = some d) ∧
      ((∃ failure, parse .json s.text = .error (.json failure)) ↔ Shape.document.ofWritten? s.value = none) := by
  obtain ⟨reads, fails⟩ := Shape.document.ofJsonText_eq s.front s.back s.value
  rw [parse_eq]
  cases decoded : Shape.document.ofWritten? s.value with
  | none =>
    obtain ⟨failure, failed⟩ := fails decoded
    simp [failed, Except.mapError]
  | some d =>
    simp [reads d decoded, Except.mapError]

end Sheet

end Vitae.Profile
