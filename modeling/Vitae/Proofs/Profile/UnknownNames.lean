import Vitae.Proofs.Json.Compact
import Vitae.Proofs.Profile.Decoding

/-!
# Unknown names in a profile

A name that no field, section or type has is refused where it stands in the document itself or for a section or a
type. An open record tolerates it, and drops it together with its value.
-/

namespace Vitae.Profile

open Json Text

/-! ## Names that are not known -/

structure Unknown where
  name : List Char
  tolerated : Bool
  deriving DecidableEq

section

variable {α : Type}

def unknownName (all : List α) (label : α → String) (s : List Char) : List Unknown :=
  if (Written.named? all label s).isSome then [] else [⟨s, false⟩]

def unknownChoice (all : List α) (label : α → String) : Written → List Unknown
  | .string s => unknownName all label (s.map Letter.char)
  | .object members _ => members.flatMap fun m => unknownName all label m.1.chars
  | _ => []

def unknownInItems (item : Written → List Unknown) : Written → List Unknown
  | .array items _ => items.flatMap fun i => item i.2
  | _ => []

def unknownInEntries (all : List α) (label : α → String) (item : Written → List Unknown) : Written → List Unknown
  | .object members _ => members.flatMap fun m => unknownName all label m.1.chars ++ item m.2
  | _ => []

abbrev InFields := List (String × (Written → List Unknown))

def unknownInOrder : InFields → List (Gaps × Written) → List Unknown
  | f :: fields, (_, v) :: items => f.2 v ++ unknownInOrder fields items
  | _, _ => []

def unknownInMember (closed : Bool) (fields : InFields) (m : Head × Written) : List Unknown :=
  match fields.find? (fun f => f.1.toList == m.1.chars) with
  | some f => f.2 m.2
  | none => [⟨m.1.chars, !closed⟩]

def unknownInRecord (closed : Bool) (fields : InFields) : Written → List Unknown
  | .array items _ => unknownInOrder fields items
  | .object members _ => members.flatMap (unknownInMember closed fields)
  | _ => []

end

mutual

/-- The unknown names in a value of a shape. The value of an unknown name is not searched. -/
def Shape.unknown : {α : Type} → Shape α → Written → List Unknown
  | _, .text => fun _ => []
  | _, .choice all name => unknownChoice all name
  | _, .list item => unknownInItems item.unknown
  | _, .keyed all name item => unknownInEntries all name item.unknown
  | _, .record _ closed _ fields => unknownInRecord closed fields.unknown
  | _, .mapped shape _ _ => shape.unknown

def Fields.unknown : {α : Type} → Fields α → InFields
  | _, .nil => []
  | _, .cons name shape _ _ rest => (name, shape.unknown) :: rest.unknown

end

/-! ## Dropping the names that are tolerated -/

def pruneItems (item : Written → Written) : Written → Written
  | .array items last => .array (items.map fun i => (i.1, item i.2)) last
  | v => v

def pruneEntries (item : Written → Written) : Written → Written
  | .object members last => .object (members.map fun m => (m.1, item m.2)) last
  | v => v

abbrev OnFields := List (String × (Written → Written))

def pruneInOrder : OnFields → List (Gaps × Written) → List (Gaps × Written)
  | f :: fields, (g, v) :: items => (g, f.2 v) :: pruneInOrder fields items
  | _, items => items

def pruneMember? (closed : Bool) (fields : OnFields) (m : Head × Written) : Option (Head × Written) :=
  match fields.find? (fun f => f.1.toList == m.1.chars) with
  | some f => some (m.1, f.2 m.2)
  | none => if closed then some m else none

def pruneRecord (closed : Bool) (fields : OnFields) : Written → Written
  | .array items last => .array (pruneInOrder fields items) last
  | .object members last => .object (members.filterMap (pruneMember? closed fields)) last
  | v => v

mutual

/-- A value of a shape without the members that its open records drop. -/
def Shape.prune : {α : Type} → Shape α → Written → Written
  | _, .text | _, .choice _ _ => id
  | _, .list item => pruneItems item.prune
  | _, .keyed _ _ item => pruneEntries item.prune
  | _, .record _ closed _ fields => pruneRecord closed fields.prune
  | _, .mapped shape _ _ => shape.prune

def Fields.prune : {α : Type} → Fields α → OnFields
  | _, .nil => []
  | _, .cons name shape _ _ rest => (name, shape.prune) :: rest.prune

end

/-! ## Pruning and reading -/

/-- Pruning drops the unknown names that are tolerated and changes nothing that is read; where one is not tolerated,
nothing is read. -/
structure Sifts {α : Type} (decode : Written → Option α) (prune : Written → Written)
    (unknown : Written → List Unknown) : Prop where
  same : ∀ v, decode (prune v) = decode v
  refused : ∀ v, ∀ u ∈ unknown v, u.tolerated = false → decode v = none
  left : ∀ v, unknown (prune v) = (unknown v).filter (!·.tolerated)

section

variable {α β κ : Type} {decode : Written → Option α} {prune : Written → Written} {unknown : Written → List Unknown}

theorem unknownName_refused {all : List α} {label : α → String} {s : List Char} :
    ∀ u ∈ unknownName all label s, u.tolerated = false ∧ Written.named? all label s = none := by
  intro u mem
  unfold unknownName at mem
  split at mem
  · cases mem
  · case isFalse missing =>
    rw [List.mem_singleton.mp mem]
    exact ⟨rfl, by simpa using missing⟩

theorem filter_unknownName (all : List α) (label : α → String) (s : List Char) :
    (unknownName all label s).filter (!·.tolerated) = unknownName all label s :=
  List.filter_eq_self.mpr fun u mem => by simp [(unknownName_refused u mem).1]

namespace Sifts

theorem text : Sifts (fun v => v.string?.map String.ofList) id fun _ => [] where
  same _ := rfl
  refused _ _ mem := nomatch mem
  left _ := rfl

theorem choice (all : List α) (label : α → String) :
    Sifts (Written.choice? all label) id (unknownChoice all label) where
  same _ := rfl
  refused v u mem _ := by
    cases v with
    | string s => exact (unknownName_refused u mem).2
    | object members last =>
      obtain ⟨m, memM, mem⟩ := List.mem_flatMap.mp mem
      have missing := (unknownName_refused u mem).2
      cases members with
      | nil => cases memM
      | cons m' members =>
        rw [Written.choice?]
        rcases List.mem_cons.mp memM with rfl | later
        · rw [missing, Option.bind_none]
        · have more : members.isEmpty = false := List.isEmpty_eq_false_iff.mpr (List.ne_nil_of_mem later)
          rw [more, Bool.and_false]
          exact Option.bind_eq_none_iff.mpr fun _ _ => rfl
    | _ => cases mem
  left v := by
    have kept : ∀ u ∈ unknownChoice all label v, u.tolerated = false := by
      intro u mem
      cases v with
      | string s => exact (unknownName_refused u mem).1
      | object members last =>
        obtain ⟨m, -, mem⟩ := List.mem_flatMap.mp mem
        exact (unknownName_refused u mem).1
      | _ => cases mem
    exact (List.filter_eq_self.mpr fun u mem => by simp [kept u mem]).symm

theorem mapped (h : Sifts decode prune unknown) (f : α → β) : Sifts (fun v => (decode v).map f) prune unknown where
  same v := by rw [h.same]
  refused v u mem refused := by rw [h.refused v u mem refused, Option.map_none]
  left := h.left

theorem list (h : Sifts decode prune unknown) :
    Sifts (Written.list? decode) (pruneItems prune) (unknownInItems unknown) where
  same v := by
    cases v with
    | array items last => simp only [pruneItems, Written.list?, List.mapM_map, Function.comp_def, h.same]
    | _ => rfl
  refused v u mem refused := by
    cases v with
    | array items last =>
      obtain ⟨i, memI, mem⟩ := List.mem_flatMap.mp mem
      exact mapM_eq_none memI (h.refused i.2 u mem refused)
    | _ => cases mem
  left v := by
    cases v with
    | array items last => simp [pruneItems, unknownInItems, List.flatMap_map, List.filter_flatMap, h.left]
    | _ => rfl

theorem keyed (h : Sifts decode prune unknown) (all : List κ) (label : κ → String) :
    Sifts (Written.keyed? (Written.named? all label) decode) (pruneEntries prune)
      (unknownInEntries all label unknown) where
  same v := by
    cases v with
    | object members last => simp only [pruneEntries, Written.keyed?, List.mapM_map, Function.comp_def, h.same]
    | _ => rfl
  refused v u mem refused := by
    cases v with
    | object members last =>
      obtain ⟨m, memM, mem⟩ := List.mem_flatMap.mp mem
      refine mapM_eq_none memM ?_
      rcases List.mem_append.mp mem with name | value
      · rw [(unknownName_refused u name).2, Option.bind_none]
      · rw [h.refused m.2 u value refused]
        exact Option.bind_eq_none_iff.mpr fun _ _ => rfl
    | _ => cases mem
  left v := by
    cases v with
    | object members last =>
      simp [pruneEntries, unknownInEntries, List.flatMap_map, List.filter_flatMap, h.left, filter_unknownName]
    | _ => rfl

end Sifts

/-! ### Fields of records -/

inductive SiftsFields {α : Type} : FieldDecoders α → OnFields → InFields → Prop where
  | nil : SiftsFields [] [] []
  | cons {name : String} {decode : α → Written → Option α} {prune : Written → Written}
      {unknown : Written → List Unknown} {decoders : FieldDecoders α} {prunes : OnFields} {unknowns : InFields}
      (field : ∀ a, Sifts (decode a) prune unknown) (rest : SiftsFields decoders prunes unknowns) :
      SiftsFields ((name, decode) :: decoders) ((name, prune) :: prunes) ((name, unknown) :: unknowns)

namespace SiftsFields

variable {decoders : FieldDecoders α} {prunes : OnFields} {unknowns : InFields}

theorem find? (h : SiftsFields decoders prunes unknowns) (s : List Char) :
    (∃ d p u, decoders.find? (fun f => f.1.toList == s) = some d ∧ prunes.find? (fun f => f.1.toList == s) = some p ∧
        unknowns.find? (fun f => f.1.toList == s) = some u ∧ ∀ a, Sifts (d.2 a) p.2 u.2) ∨
      decoders.find? (fun f => f.1.toList == s) = none ∧ prunes.find? (fun f => f.1.toList == s) = none ∧
        unknowns.find? (fun f => f.1.toList == s) = none := by
  induction h with
  | nil => exact .inr ⟨rfl, rfl, rfl⟩
  | @cons name decode prune unknown _ _ _ field _ ih =>
    simp only [List.find?_cons]
    cases name.toList == s with
    | true => exact .inl ⟨(name, decode), (name, prune), (name, unknown), rfl, rfl, rfl, field⟩
    | false => exact ih

/-! ### Records in lists -/

theorem same_inOrder (h : SiftsFields decoders prunes unknowns) (a : α) (items : List (Gaps × Written)) :
    fieldsInOrder? decoders a (pruneInOrder prunes items) = fieldsInOrder? decoders a items := by
  induction h generalizing a items with
  | nil => rfl
  | cons field _ ih =>
    cases items with
    | nil => rfl
    | cons i items => simp only [pruneInOrder, fieldsInOrder?, (field a).same, ih]

theorem refused_inOrder (h : SiftsFields decoders prunes unknowns) (a : α) (items : List (Gaps × Written)) :
    ∀ u ∈ unknownInOrder unknowns items, u.tolerated = false → fieldsInOrder? decoders a items = none := by
  intro u mem refused
  induction h generalizing a items with
  | nil => cases mem
  | cons field _ ih =>
    cases items with
    | nil => cases mem
    | cons i items =>
      rw [fieldsInOrder?]
      rcases List.mem_append.mp mem with here | later
      · rw [(field a).refused i.2 u here refused, Option.bind_none]
      · exact Option.bind_eq_none_iff.mpr fun b _ => ih b items later

theorem left_inOrder (h : SiftsFields decoders prunes unknowns) (a : α) (items : List (Gaps × Written)) :
    unknownInOrder unknowns (pruneInOrder prunes items) =
      (unknownInOrder unknowns items).filter (!·.tolerated) := by
  induction h generalizing items with
  | nil => rfl
  | cons field _ ih =>
    cases items with
    | nil => rfl
    | cons i items =>
      simp only [pruneInOrder, unknownInOrder, List.filter_append, (field a).left, ih]

/-! ### Records in objects -/

section

variable {head : Head}

theorem pruneMember?_known {p : String × (Written → Written)}
    (known : prunes.find? (fun f => f.1.toList == head.chars) = some p) (closed : Bool) (v : Written) :
    pruneMember? closed prunes (head, v) = some (head, p.2 v) := by
  rw [pruneMember?, known]

theorem pruneMember?_closed (missing : prunes.find? (fun f => f.1.toList == head.chars) = none) (v : Written) :
    pruneMember? true prunes (head, v) = some (head, v) := by
  rw [pruneMember?, missing, if_pos rfl]

theorem pruneMember?_open (missing : prunes.find? (fun f => f.1.toList == head.chars) = none) (v : Written) :
    pruneMember? false prunes (head, v) = none := by
  rw [pruneMember?, missing, if_neg Bool.false_ne_true]

theorem unknownInMember_known {f : String × (Written → List Unknown)}
    (known : unknowns.find? (fun f => f.1.toList == head.chars) = some f) (closed : Bool) (v : Written) :
    unknownInMember closed unknowns (head, v) = f.2 v := by
  rw [unknownInMember, known]

theorem unknownInMember_missing (missing : unknowns.find? (fun f => f.1.toList == head.chars) = none)
    (closed : Bool) (v : Written) : unknownInMember closed unknowns (head, v) = [⟨head.chars, !closed⟩] := by
  rw [unknownInMember, missing]

end

theorem same_byName (h : SiftsFields decoders prunes unknowns) (closed : Bool) (seen : List (List Char)) (a : α)
    (members : List (Head × Written)) :
    fieldsByName? decoders closed seen a (members.filterMap (pruneMember? closed prunes)) =
      fieldsByName? decoders closed seen a members := by
  induction members generalizing seen a with
  | nil => rfl
  | cons m members ih =>
    obtain ⟨head, v⟩ := m
    rcases h.find? head.chars with ⟨d, p, u, decoder, pruned, -, field⟩ | ⟨noDecoder, notPruned, -⟩
    · rw [List.filterMap_cons_some (pruneMember?_known pruned closed v), fieldsByName?, fieldsByName?, decoder]
      simp only [(field a).same, ih]
    · cases closed with
      | true =>
        -- the member is refused, so what stands behind it makes no difference
        rw [List.filterMap_cons_some (pruneMember?_closed notPruned v), fieldsByName?, fieldsByName?, noDecoder]
        rfl
      | false =>
        rw [List.filterMap_cons_none (pruneMember?_open notPruned v), ih, fieldsByName?, noDecoder]
        rfl

theorem refused_byName (h : SiftsFields decoders prunes unknowns) (closed : Bool) (seen : List (List Char)) (a : α)
    (members : List (Head × Written)) : ∀ u ∈ members.flatMap (unknownInMember closed unknowns),
      u.tolerated = false → fieldsByName? decoders closed seen a members = none := by
  intro u mem refused
  induction members generalizing seen a with
  | nil => cases mem
  | cons m members ih =>
    obtain ⟨head, v⟩ := m
    rw [List.flatMap_cons, List.mem_append] at mem
    rw [fieldsByName?]
    rcases h.find? head.chars with ⟨d, p, f, decoder, -, found, field⟩ | ⟨noDecoder, -, notFound⟩
    · rw [unknownInMember_known found] at mem
      rw [decoder]
      dsimp only
      split
      · rfl
      · rcases mem with here | later
        · rw [(field a).refused v u here refused, Option.bind_none]
        · exact Option.bind_eq_none_iff.mpr fun b _ => ih _ b later
    · rw [unknownInMember_missing notFound] at mem
      rw [noDecoder]
      dsimp only
      split
      · rfl
      · case isFalse opened =>
        rcases mem with here | later
        · rw [List.mem_singleton.mp here] at refused
          simp [opened] at refused
        · exact ih seen a later

theorem left_byName (h : SiftsFields decoders prunes unknowns) (closed : Bool) (a : α)
    (members : List (Head × Written)) :
    (members.filterMap (pruneMember? closed prunes)).flatMap (unknownInMember closed unknowns) =
      (members.flatMap (unknownInMember closed unknowns)).filter (!·.tolerated) := by
  induction members with
  | nil => rfl
  | cons m members ih =>
    obtain ⟨head, v⟩ := m
    rw [List.flatMap_cons, List.filter_append, ← ih]
    rcases h.find? head.chars with ⟨d, p, f, -, pruned, found, field⟩ | ⟨-, notPruned, notFound⟩
    · rw [List.filterMap_cons_some (pruneMember?_known pruned closed v), List.flatMap_cons,
        unknownInMember_known found, unknownInMember_known found, (field a).left]
    · rw [unknownInMember_missing notFound]
      cases closed with
      | true =>
        rw [List.filterMap_cons_some (pruneMember?_closed notPruned v), List.flatMap_cons,
          unknownInMember_missing notFound]
        rfl
      | false =>
        rw [List.filterMap_cons_none (pruneMember?_open notPruned v)]
        rfl

theorem record (h : SiftsFields decoders prunes unknowns) (closed : Bool) (empty : α) :
    Sifts (Written.record? closed decoders empty) (pruneRecord closed prunes) (unknownInRecord closed unknowns) where
  same v := by
    cases v with
    | array items last => exact h.same_inOrder empty items
    | object members last => exact h.same_byName closed [] empty members
    | _ => rfl
  refused v := by
    cases v with
    | array items last => exact h.refused_inOrder empty items
    | object members last => exact h.refused_byName closed [] empty members
    | _ => nofun
  left v := by
    cases v with
    | array items last => exact h.left_inOrder empty items
    | object members last => exact h.left_byName closed empty members
    | _ => rfl

end SiftsFields

end

mutual

theorem Shape.sifts : {α : Type} → (shape : Shape α) → Sifts shape.ofWritten? shape.prune shape.unknown
  | _, .text => .text
  | _, .choice all name => .choice all name
  | _, .list item => item.sifts.list
  | _, .keyed all name item => item.sifts.keyed all name
  | _, .record _ closed empty fields => fields.sifts.record closed empty
  | _, .mapped shape read _ => shape.sifts.mapped read

theorem Fields.sifts : {α : Type} → (fields : Fields α) →
    SiftsFields fields.ofWritten? fields.prune fields.unknown
  | _, .nil => .nil
  | _, .cons _ shape _ set rest => .cons (fun a => shape.sifts.mapped (set a)) rest.sifts

end

/-! ## Profiles -/

namespace Sheet

def unknown (s : Sheet) : List Unknown :=
  Shape.document.unknown s.value

def pruned (s : Sheet) : Sheet :=
  { s with members := s.members.filterMap (pruneMember? true documentFields.prune) }

theorem value_pruned (s : Sheet) : s.pruned.value = Shape.document.prune s.value :=
  rfl

/-- A profile is refused for an unknown name of the document, a section or a type, and else exactly if it would be
without all unknown names. Those of entries, links and sections that the user made up are dropped without a word. -/
theorem parse_unknownNames (s : Sheet) :
    ((∃ failure, parse .json s.text = .error (.json failure)) ↔
        (∃ u ∈ s.unknown, u.tolerated = false) ∨ ∃ failure, parse .json s.pruned.text = .error (.json failure)) ∧
      (∀ d, parse .json s.text = .ok d ↔ parse .json s.pruned.text = .ok d) ∧
      s.pruned.unknown = s.unknown.filter (!·.tolerated) := by
  have sifts := Shape.document.sifts
  have same : Shape.document.ofWritten? s.pruned.value = Shape.document.ofWritten? s.value := by
    rw [value_pruned, sifts.same]
  obtain ⟨reads, refuses⟩ := s.parse_iff
  obtain ⟨reads', refuses'⟩ := s.pruned.parse_iff
  refine ⟨?_, fun d => ?_, sifts.left s.value⟩
  · rw [refuses, refuses', same]
    constructor
    · exact .inr
    · rintro (⟨u, mem, refused⟩ | missing)
      · exact sifts.refused s.value u mem refused
      · exact missing
  · rw [reads, reads', same]

def misspelt : Sheet where
  marks := 0
  front := .none
  members := writtenMembers
    [("experience".toList, .array [.object [("positon".toList, .string "x".toList)]])]
  last := .none
  back := .none

theorem parse_misspelt : misspelt.text = "\x7b\"experience\":[\x7b\"positon\":\"x\"\x7d]\x7d".toList ∧
    misspelt.unknown = [⟨"positon".toList, true⟩] ∧ parse .json misspelt.text = .ok { experience := [{}] } :=
  ⟨rfl, by decide, (misspelt.parse_iff.1 _).mpr (by decide)⟩

end Sheet

end Vitae.Profile
