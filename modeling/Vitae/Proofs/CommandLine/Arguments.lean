import Vitae.CommandLine.Arguments
import Vitae.Proofs.Files.Tree

namespace Vitae.CommandLine

open FileTree (bind_eq_ok)

namespace Arguments

variable {s t : State} {o : Opt}

structure Recorded (s : State) : Prop where
  inputs : s.invocation.inputs ≠ [] → .inputs ∈ s.given
  seed : s.invocation.seed = true → .option .seed ∈ s.given

theorem note_eq_ok (h : note s o = .ok t) : t = { s with given := .option o :: s.given } := by
  unfold note at h
  split at h
  · cases h
  · cases h
    rfl

/-! ## One argument -/

namespace Recorded

theorem empty : Recorded {} where
  inputs given := absurd rfl given
  seed given := by cases given

theorem note (recorded : Recorded s) (h : note s o = .ok t) : Recorded t := by
  cases note_eq_ok h
  exact ⟨fun given => List.mem_cons_of_mem _ (recorded.inputs given),
    fun given => List.mem_cons_of_mem _ (recorded.seed given)⟩

theorem setValue (recorded : Recorded s) {value : String} (h : setValue s o value = .ok t) : Recorded t := by
  obtain ⟨u, noted, h⟩ := bind_eq_ok.mp h
  have recorded := recorded.note noted
  split at h
  · obtain ⟨path, -, h⟩ := bind_eq_ok.mp h
    cases h
    exact ⟨recorded.inputs, recorded.seed⟩
  · split at h
    · cases h
      exact ⟨recorded.inputs, recorded.seed⟩
    · cases h
  · cases h
    exact ⟨recorded.inputs, recorded.seed⟩
  · cases h
    exact recorded

theorem resolve (recorded : Recorded s) (h : resolve s = .ok t) : Recorded t := by
  unfold Arguments.resolve at h
  split at h
  · cases h
    exact recorded
  · split at h
    · cases h
    · have waiting : Recorded { s with pending := none } := ⟨recorded.inputs, recorded.seed⟩
      exact waiting.setValue h
  · obtain ⟨paths, -, h⟩ := bind_eq_ok.mp h
    cases h
    exact ⟨fun _ => List.mem_cons_self, fun given => List.mem_cons_of_mem _ (recorded.seed given)⟩

theorem setFlag (recorded : Recorded s) (h : setFlag s o = .ok t) : Recorded t := by
  obtain ⟨u, resolved, h⟩ := bind_eq_ok.mp h
  obtain ⟨v, noted, h⟩ := bind_eq_ok.mp h
  have recorded := (recorded.resolve resolved).note noted
  have given := note_eq_ok noted
  cases o <;> cases h
  case seed => exact ⟨recorded.inputs, fun _ => given ▸ List.mem_cons_self⟩
  all_goals exact ⟨recorded.inputs, recorded.seed⟩

theorem startOption (recorded : Recorded s) {attached : Option String}
    (h : startOption s o attached = .ok t) : Recorded t := by
  obtain ⟨u, resolved, h⟩ := bind_eq_ok.mp h
  have recorded := recorded.resolve resolved
  split at h
  · exact recorded.setValue h
  · cases h
    exact ⟨recorded.inputs, recorded.seed⟩

theorem long (recorded : Recorded s) {text : List Char} (h : long s text = .ok t) : Recorded t := by
  unfold Arguments.long at h
  extract_lets name attached at h
  clear_value attached
  split at h
  · cases h
  · split at h
    · exact recorded.startOption h
    · split at h
      · cases h
      · exact recorded.setFlag h

theorem shorts (recorded : Recorded s) {letters : List Char} (h : shorts s letters = .ok t) : Recorded t := by
  induction letters generalizing s with
  | nil =>
    cases h
    exact recorded
  | cons c letters ih =>
    unfold Arguments.shorts at h
    split at h
    · cases h
    · split at h
      · exact recorded.startOption h
      · obtain ⟨u, flagged, h⟩ := bind_eq_ok.mp h
        exact ih (recorded.setFlag flagged) h

theorem plain (recorded : Recorded s) {text : String} (h : plain s text = .ok t) : Recorded t := by
  unfold Arguments.plain at h
  split at h
  · split at h
    · obtain ⟨u, resolved, h⟩ := bind_eq_ok.mp h
      cases h
      have recorded := recorded.resolve resolved
      exact ⟨recorded.inputs, recorded.seed⟩
    · cases h
      exact ⟨recorded.inputs, recorded.seed⟩
  · cases h
    exact ⟨recorded.inputs, recorded.seed⟩
  · obtain ⟨u, resolved, h⟩ := bind_eq_ok.mp h
    cases h
    have recorded := recorded.resolve resolved
    exact ⟨recorded.inputs, recorded.seed⟩

theorem step (recorded : Recorded s) {text : String} (h : step s text = .ok t) : Recorded t := by
  unfold Arguments.step at h
  split at h
  · exact recorded.plain h
  · split at h
    · cases h
      exact ⟨recorded.inputs, recorded.seed⟩
    · exact recorded.long h
    · exact recorded.shorts h
    · exact recorded.plain h

theorem foldlM (recorded : Recorded s) {arguments : List String}
    (h : arguments.foldlM Arguments.step s = .ok t) : Recorded t := by
  induction arguments generalizing s with
  | nil =>
    cases h
    exact recorded
  | cons argument arguments ih =>
    rw [List.foldlM_cons] at h
    obtain ⟨u, stepped, rest⟩ := bind_eq_ok.mp h
    exact ih (recorded.step stepped) rest

end Recorded

/-! ## The conflict -/

theorem eraseDups_eq_singleton {α : Type} [DecidableEq α] {a : α} {l : List α} (mem : a ∈ l)
    (only : ∀ x ∈ l, x = a) : l.eraseDups = [a] := by
  cases l with
  | nil => cases mem
  | cons x l =>
    rw [List.forall_mem_cons] at only
    obtain ⟨rfl, only⟩ := only
    have none : l.filter (fun y => !y == x) = [] := by simpa using only
    rw [List.eraseDups_cons, none]
    rfl

theorem eraseDups_cons_eq_pair {α : Type} [DecidableEq α] {a b : α} {l : List α} (ne : a ≠ b)
    (mem : b ∈ a :: l) (only : ∀ x ∈ l, x = a ∨ x = b) : (a :: l).eraseDups = [a, b] := by
  have other : b ∈ l.filter (fun x => !x == a) := by
    rw [List.mem_filter]
    exact ⟨(List.mem_cons.mp mem).resolve_left ne.symm, by simpa using ne.symm⟩
  have same : ∀ x ∈ l.filter (fun x => !x == a), x = b := by
    intro x mem
    rw [List.mem_filter] at mem
    exact (only x mem.1).resolve_left (by simpa using mem.2)
  rw [List.eraseDups_cons, eraseDups_eq_singleton other same]

theorem eraseDups_eq_pair {α : Type} [DecidableEq α] {a b : α} {l : List α} (ne : a ≠ b) (memA : a ∈ l)
    (memB : b ∈ l) (only : ∀ x ∈ l, x = a ∨ x = b) :
    l.eraseDups = [a, b] ∨ l.eraseDups = [b, a] := by
  cases l with
  | nil => cases memA
  | cons x l =>
    rw [List.forall_mem_cons] at only
    obtain ⟨rfl | rfl, only⟩ := only
    · exact .inl (eraseDups_cons_eq_pair ne memB only)
    · exact .inr (eraseDups_cons_eq_pair ne.symm memA fun y mem => (only y mem).symm)

theorem not_both_of_checkConflict (h : checkConflict s = .ok ()) :
    ¬(.inputs ∈ s.given ∧ .option .seed ∈ s.given) := by
  rintro ⟨inputs, seed⟩
  unfold checkConflict at h
  extract_lets both at h
  have pair : both.eraseDups = [.inputs, .option .seed] ∨ both.eraseDups = [.option .seed, .inputs] := by
    apply eraseDups_eq_pair (by decide)
    · simpa [both] using inputs
    · simpa [both] using seed
    · intro t mem
      simpa using (List.mem_filter.mp mem).2
  obtain pair | pair := pair <;> rw [pair] at h <;> cases h

end Arguments

theorem seed_of_inputs {arguments : List String} {i : Invocation}
    (parsed : Invocation.ofArguments arguments = .ok i) (inputs : i.inputs ≠ []) : i.seed = false := by
  obtain ⟨s, told, h⟩ := bind_eq_ok.mp parsed
  obtain ⟨t, resolved, h⟩ := bind_eq_ok.mp h
  obtain ⟨_, checked, h⟩ := bind_eq_ok.mp h
  cases h
  have recorded := (Arguments.Recorded.empty.foldlM told).resolve resolved
  rw [← Bool.not_eq_true]
  exact fun seed => Arguments.not_both_of_checkConflict checked ⟨recorded.inputs inputs, recorded.seed seed⟩

end Vitae.CommandLine
