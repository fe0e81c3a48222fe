import Vitae.Proofs.Tex.Decoding
import Vitae.Proofs.Tex.Escaping
import Mathlib.Data.List.Infix

namespace Vitae.Tex

variable {p s t : Tex}

def differ : List Char → List Char → Bool
  | a :: s, b :: t => a != b || differ s t
  | _, _ => false

/-- The first text starts nowhere in the second one, whatever stands behind it. -/
def lacks (p : Tex) : Tex → Bool
  | [] => true
  | c :: t => differ p (c :: t) && lacks p t

theorem differ_append (h : differ p s = true) (t : Tex) : differ p (s ++ t) = true := by
  induction p generalizing s with
  | nil => cases h
  | cons a p ih =>
    cases s with
    | nil => cases h
    | cons b s =>
      rw [List.cons_append]
      rw [differ, Bool.or_eq_true] at h ⊢
      exact h.imp_right ih

theorem not_prefix_of_differ (h : differ p s = true) : ¬p <+: s := by
  induction p generalizing s with
  | nil => cases h
  | cons a p ih =>
    cases s with
    | nil => cases h
    | cons b s =>
      rw [differ, Bool.or_eq_true, bne_iff_ne] at h
      intro start
      obtain ⟨same, start⟩ := List.cons_prefix_cons.mp start
      exact h.elim (fun ne => ne same) fun rest => ih rest start

theorem lacks_append (hs : lacks p s = true) (ht : lacks p t = true) : lacks p (s ++ t) = true := by
  induction s with
  | nil => exact ht
  | cons c s ih =>
    rw [lacks, Bool.and_eq_true] at hs
    rw [List.cons_append, lacks, Bool.and_eq_true]
    exact ⟨differ_append hs.1 t, ih hs.2⟩

theorem length_le_of_lacks {k a b : Tex} (h : lacks p s = true) (eq : s ++ k = a ++ (p ++ b)) :
    s.length ≤ a.length := by
  induction s generalizing a with
  | nil => exact Nat.zero_le _
  | cons c s ih =>
    rw [lacks, Bool.and_eq_true] at h
    cases a with
    | nil =>
      have start : p <+: c :: s ++ k := ⟨b, eq.symm⟩
      exact absurd start (not_prefix_of_differ (differ_append h.1 k))
    | cons d a => exact Nat.succ_le_succ (ih h.2 (List.cons.inj eq).2)

theorem not_infix_of_lacks (h : lacks p s = true) (ne : p ≠ []) : ¬p <:+: s := by
  rintro ⟨a, b, rfl⟩
  have inside := length_le_of_lacks (k := []) (a := a) (b := b) h (by simp)
  have longer := List.length_pos_of_ne_nil ne
  simp only [List.length_append] at inside
  omega

theorem lacks_flatMap {α : Type} {l : List α} {f : α → Tex} (h : ∀ x ∈ l, lacks p (f x) = true) :
    lacks p (l.flatMap f) = true := by
  induction l with
  | nil => rfl
  | cons x l ih =>
    rw [List.forall_mem_cons] at h
    exact lacks_append h.1 (ih h.2)

theorem cutTargets_append_of_lacks (h : lacks linkStart s = true) (k : Tex) :
    cutTargets (s ++ k) = (s ++ (cutTargets k).1, (cutTargets k).2) := by
  induction s with
  | nil => rfl
  | cons c s ih =>
    rw [lacks, Bool.and_eq_true] at h
    have noLink : Text.stripPrefix? linkStart (c :: (s ++ k)) = none := by
      rw [Option.eq_none_iff_forall_ne_some]
      intro r found
      exact not_prefix_of_differ (differ_append h.1 k) ⟨r, (Text.stripPrefix?_eq_some.mp found).symm⟩
    rw [List.cons_append, cutTargets_cons noLink, ih h.2]
    rfl

theorem not_mem_escape {c : Char} (plain : ∀ f ∈ escapedForms, c ∉ f.2) {s : List Char} (h : c ∉ s) :
    c ∉ escape s := by
  intro mem
  obtain ⟨d, memD, memC⟩ := List.mem_flatMap.mp mem
  refine escapeChar_cases (P := (c ∉ ·)) plain (fun _ memSelf => ?_) memC
  obtain rfl := List.mem_singleton.mp memSelf
  exact h memD

/-! ## Reserved texts -/

/-- A text that starts in no text of a user, because it is behind a backslash and differs from all escaped
forms. -/
structure Reserved (p : Tex) : Prop where
  start : p.head? = some '\\'
  forms : ∀ f ∈ escapedForms, lacks p f.2 = true

namespace Reserved

theorem lacks_char (h : Reserved p) {c : Char} (ne : c ≠ '\\') : lacks p [c] = true := by
  obtain ⟨q, rfl⟩ := List.head?_eq_some_iff.mp h.start
  have first : ('\\' != c) = true := bne_iff_ne.mpr (Ne.symm ne)
  simp [lacks, differ, first]

theorem lacks_escape (h : Reserved p) (s : List Char) : lacks p (escape s) = true := by
  refine lacks_flatMap fun c _ => escapeChar_cases (P := (lacks p · = true)) h.forms fun plain => h.lacks_char ?_
  rintro rfl
  exact plain (by decide)

theorem lacks_hardened (h : Reserved p) {u : Tex} (hard : Target.Hardened u) : lacks p u = true := by
  induction hard with
  | nil => rfl
  | escaped mark _ ih =>
    refine lacks_append (s := ['\\', _]) ?_ ih
    rcases mark with rfl | rfl
    · exact h.forms ('%', _) (by decide)
    · exact h.forms ('#', _) (by decide)
  | plain _ safe _ _ ih =>
    refine lacks_append (s := [_]) (h.lacks_char ?_) ih
    rintro rfl
    exact safe (by decide)

end Reserved

end Vitae.Tex
