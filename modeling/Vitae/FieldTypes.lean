namespace Vitae

inductive FieldType where
  | paragraph
  | bullet
  | hyperlink
  | structured
  | text
  | references
  deriving DecidableEq, Repr, Inhabited

namespace FieldType

def all : List FieldType :=
  [.paragraph, .bullet, .hyperlink, .structured, .text, .references]

def name : FieldType → String
  | .paragraph => "paragraph"
  | .bullet => "bullet"
  | .hyperlink => "hyperlink"
  | .structured => "structured"
  | .text => "text"
  | .references => "references"

def ofName? (s : String) : Option FieldType :=
  all.find? (·.name == s)

def isToggleable : FieldType → Bool
  | .paragraph | .bullet | .hyperlink | .text => true
  | .structured | .references => false

def bit : FieldType → BitVec 6
  | .paragraph => 0b000001
  | .bullet => 0b000010
  | .hyperlink => 0b000100
  | .structured => 0b001000
  | .text => 0b010000
  | .references => 0b100000

theorem mem_all (t : FieldType) : t ∈ all := by
  cases t <;> decide

theorem ofName?_name (t : FieldType) : ofName? t.name = some t := by
  cases t <;> decide

theorem bit_ne_zero (t : FieldType) : t.bit ≠ 0 := by
  cases t <;> decide

theorem bit_and_bit (t u : FieldType) : t.bit &&& u.bit = if t = u then u.bit else 0 := by
  cases t <;> cases u <;> decide

theorem and_bit (b : BitVec 6) (u : FieldType) : b &&& u.bit = 0 ∨ b &&& u.bit = u.bit := by
  revert b
  cases u <;> decide

theorem or_bit_and_bit (b : BitVec 6) (t u : FieldType) :
    ((b ||| t.bit) &&& u.bit != 0) = (t == u || b &&& u.bit != 0) := by
  rw [BitVec.and_or_distrib_right, bit_and_bit]
  by_cases eq : t = u
  · have ne_zero := u.bit_ne_zero
    simp_all [BitVec.or_eq_zero_iff]
  · simp [eq]

theorem xor_bit_and_bit (b : BitVec 6) (t u : FieldType) :
    ((b ^^^ t.bit) &&& u.bit != 0) = ((b &&& u.bit != 0) != (t == u)) := by
  have distrib : (b ^^^ t.bit) &&& u.bit = (b &&& u.bit) ^^^ (t.bit &&& u.bit) := by
    ext i
    simp [Bool.and_xor_distrib_right]
  rw [distrib, bit_and_bit]
  by_cases eq : t = u
  · have ne_zero := u.bit_ne_zero
    rcases and_bit b u with clear | set <;> simp_all
  · have other : (t == u) = false := by simp [eq]
    simp [eq, other]

end FieldType

structure FieldTypes where
  bits : BitVec 6
  bits_ne_zero : bits ≠ 0
  deriving DecidableEq

namespace FieldTypes

def only (t : FieldType) : FieldTypes :=
  ⟨t.bit, t.bit_ne_zero⟩

instance : Inhabited FieldTypes := ⟨only .paragraph⟩

/-- The set of the given bits, or of `paragraph` alone if there is none. -/
def ofBits (b : BitVec 6) : FieldTypes :=
  if h : b = 0 then only .paragraph else ⟨b, h⟩

def contains (s : FieldTypes) (t : FieldType) : Bool :=
  s.bits &&& t.bit != 0

def insert (s : FieldTypes) (t : FieldType) : FieldTypes :=
  ⟨s.bits ||| t.bit, by
    obtain ⟨b, hb⟩ := s
    revert b
    cases t <;> decide⟩

/-- The set with the membership of `t` flipped. Without its last member it becomes `paragraph`. -/
def toggle (s : FieldTypes) (t : FieldType) : FieldTypes :=
  ofBits (s.bits ^^^ t.bit)

def toList (s : FieldTypes) : List FieldType :=
  FieldType.all.filter s.contains

def ofList (ts : List FieldType) : FieldTypes :=
  ofBits (ts.foldl (fun b t => b ||| t.bit) 0)

instance : Repr FieldTypes := ⟨fun s n => reprPrec s.toList n⟩

/-! ## Members -/

theorem contains_only (t u : FieldType) : (only t).contains u = (t == u) := by
  cases t <;> cases u <;> decide

theorem contains_insert (s : FieldTypes) (t u : FieldType) :
    (s.insert t).contains u = (t == u || s.contains u) := by
  rw [insert, contains]
  exact FieldType.or_bit_and_bit s.bits t u

theorem contains_ofBits (b : BitVec 6) (u : FieldType) :
    (ofBits b).contains u = if b = 0 then u == .paragraph else b &&& u.bit != 0 := by
  unfold ofBits
  split
  · cases u <;> decide
  · rfl

theorem contains_toggle (s : FieldTypes) (t u : FieldType) :
    (s.toggle t).contains u =
      if s = only t then u == .paragraph else s.contains u != (t == u) := by
  obtain ⟨b, hb⟩ := s
  rw [toggle, contains_ofBits, FieldType.xor_bit_and_bit]
  simp only [BitVec.ofNat_eq_ofNat, BitVec.xor_eq_zero_iff, only, FieldTypes.mk.injEq, contains]

theorem foldl_bit_and_ne_zero (ts : List FieldType) (b : BitVec 6) (u : FieldType) :
    (ts.foldl (fun b t => b ||| t.bit) b &&& u.bit != 0) = (b &&& u.bit != 0 || ts.contains u) := by
  induction ts generalizing b with
  | nil => simp
  | cons t ts ih =>
    rw [List.foldl_cons, ih, FieldType.or_bit_and_bit, List.contains_cons, BEq.comm, Bool.or_left_comm,
      Bool.or_assoc]

theorem contains_ofList (ts : List FieldType) (u : FieldType) :
    (ofList ts).contains u = if ts = [] then u == .paragraph else ts.contains u := by
  cases ts with
  | nil => cases u <;> decide
  | cons t ts =>
    have bits := foldl_bit_and_ne_zero (t :: ts) 0
    have ne_zero : (t :: ts).foldl (fun b t => b ||| t.bit) (0 : BitVec 6) ≠ 0 := by
      intro zero
      have first := bits t
      rw [zero] at first
      simp at first
    rw [ofList, contains_ofBits, if_neg ne_zero, bits]
    simp

theorem mem_toList {s : FieldTypes} {t : FieldType} : t ∈ s.toList ↔ s.contains t = true := by
  simp [toList, FieldType.mem_all]

theorem ofList_toList (s : FieldTypes) : ofList s.toList = s := by
  obtain ⟨b, ne⟩ := s
  revert b
  decide

theorem eq_of_contains {s t : FieldTypes} (same : ∀ u, s.contains u = t.contains u) : s = t := by
  have list : s.toList = t.toList := by rw [toList, toList, funext same]
  rw [← ofList_toList s, list, ofList_toList]

theorem toList_ne_nil (s : FieldTypes) : s.toList ≠ [] := by
  intro none
  have paragraph : s = only .paragraph := by
    rw [← ofList_toList s, none]
    rfl
  rw [paragraph] at none
  cases none

theorem ofList_eq {s : FieldTypes} {l : List FieldType} (same : ∀ t, t ∈ s.toList ↔ t ∈ l) :
    ofList l = s := by
  have visible : l ≠ [] := by
    rintro rfl
    apply s.toList_ne_nil
    exact List.eq_nil_iff_forall_not_mem.mpr fun t mem => List.not_mem_nil ((same t).mp mem)
  apply eq_of_contains
  intro t
  rw [contains_ofList, if_neg visible, Bool.eq_iff_iff, List.contains_iff_mem, ← same, mem_toList]

end FieldTypes

end Vitae
