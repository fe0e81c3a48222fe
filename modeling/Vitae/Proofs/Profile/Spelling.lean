import Vitae.Proofs.Json.Compact
import Vitae.Proofs.Profile.Decoding

/-!
# The spellings of a value

A value of a shape has more than one JSON value that stands for it: the members of an object may come in any
order, those of a record that hold what it starts from may be left out, and a set may be listed in any way
(`Shape.Spells`). If the shape is `Lawful`, it decodes each of them to the value.
-/

namespace Vitae.Profile

open Json

/-! ## Spellings -/

/-- Whether two values mean the same once they are taken for another type. The names in a list are then a
set, and entries have no order. -/
def Shape.Alike : {α : Type} → Shape α → α → α → Prop
  | _, .list (.choice _ _) => fun l m => ∀ a, a ∈ l ↔ a ∈ m
  | _, .keyed _ _ _ => List.Perm
  | _, _ => Eq

mutual

/-- The JSON values that stand for a value. -/
def Shape.Spells : {α : Type} → Shape α → α → Json → Prop
  | _, .text => fun s j => j = .string s.toList
  | _, .choice _ name => fun a j => j = .string (name a).toList
  | _, .list item => fun l j => ∃ items, j = .array items ∧ List.Forall₂ item.Spells l items
  | _, .keyed _ name item => fun l j => ∃ members, j = .object members ∧
    List.Forall₂ (fun p m => m.1 = (name p.1).toList ∧ item.Spells p.2 m.2) l members
  | _, .record _ _ empty fields => fun a j => ∃ members written, j = .object members ∧
    members.Perm written ∧ fields.Spells empty a written
  | _, .mapped shape _ write => fun b j => ∃ a, shape.Alike (write b) a ∧ shape.Spells a j

/-- Members for the fields of a record in order, those that are as in the empty one there or not. -/
def Fields.Spells : {α : Type} → Fields α → α → α → List (List Char × Json) → Prop
  | _, .nil => fun _ _ members => members = []
  | _, .cons name shape get _ rest => fun empty a members =>
    (get a = get empty ∧ rest.Spells empty a members) ∨
      ∃ j others, members = (name.toList, j) :: others ∧ shape.Spells (get a) j ∧
        rest.Spells empty a others

end

theorem Shape.Alike.refl : {α : Type} → (shape : Shape α) → (a : α) → shape.Alike a a
  | _, .list item, _ => by
    cases item <;> first | rfl | exact fun _ => Iff.rfl
  | _, .keyed _ _ _, l => List.Perm.refl l
  | _, .text, _ | _, .choice _ _, _ | _, .record _ _ _ _, _ | _, .mapped _ _ _, _ => rfl

mutual

theorem Shape.spells_toJson : {α : Type} → (shape : Shape α) → (a : α) → shape.Spells a (shape.toJson a)
  | _, .text, _ => rfl
  | _, .choice _ _, _ => rfl
  | _, .list item, _ =>
    ⟨_, rfl, List.forall₂_map_right_iff.mpr (List.forall₂_same.mpr fun a _ => item.spells_toJson a)⟩
  | _, .keyed _ _ item, _ =>
    ⟨_, rfl, List.forall₂_map_right_iff.mpr
      (List.forall₂_same.mpr fun p _ => ⟨rfl, item.spells_toJson p.2⟩)⟩
  | _, .record _ _ empty fields, a => ⟨_, _, rfl, .refl _, fields.spells_toJson empty a⟩
  | _, .mapped shape _ write, b => ⟨_, .refl shape _, shape.spells_toJson (write b)⟩

theorem Fields.spells_toJson : {α : Type} → (fields : Fields α) → (empty a : α) →
    fields.Spells empty a (fields.toJson a)
  | _, .nil, _, _ => rfl
  | _, .cons _ shape get _ rest, empty, a =>
    .inr ⟨_, _, rfl, shape.spells_toJson (get a), rest.spells_toJson empty a⟩

end

/-! ## Laws of shapes -/

namespace Fields

@[induction_eliminator]
theorem induction {α : Type} {motive : Fields α → Prop} (nil : motive .nil)
    (cons : ∀ {β : Type} (name : String) (shape : Shape β) (get : α → β) (set : α → β → α)
      (rest : Fields α), motive rest → motive (.cons name shape get set rest)) :
    (fields : Fields α) → motive fields
  | .nil => nil
  | .cons name shape get set rest => cons name shape get set rest (induction nil cons rest)

def names : {α : Type} → Fields α → List (List Char)
  | _, .nil => []
  | _, .cons name _ _ _ rest => name.toList :: rest.names

def Agree : {α : Type} → Fields α → α → α → Prop
  | _, .nil => fun _ _ => True
  | _, .cons _ _ get _ rest => fun a b => get a = get b ∧ rest.Agree a b

def Untouched : {α β : Type} → Fields α → (α → β → α) → Prop
  | _, _, .nil, _ => True
  | _, _, .cons _ _ get _ rest, set => (∀ a b, get (set a b) = get a) ∧ rest.Untouched set

def Keeps : {α β : Type} → Fields α → (α → β) → Prop
  | _, _, .nil, _ => True
  | _, _, .cons _ _ _ set rest, get => (∀ a b, get (set a b) = get a) ∧ rest.Keeps get

end Fields

mutual

/-- What is read is what was written: names tell values apart, each field stands on its own, and a value
comes back from what it is written as. -/
def Shape.Lawful : {α : Type} → Shape α → Prop
  | _, .text => True
  | _, .choice all name => ∀ a, all.find? (fun b => (name b).toList == (name a).toList) = some a
  | _, .list item => item.Lawful
  | _, .keyed all name item =>
    (∀ k, all.find? (fun b => (name b).toList == (name k).toList) = some k) ∧ item.Lawful
  | _, .record _ _ _ fields => fields.Lawful ∧ ∀ a b, fields.Agree a b → a = b
  | _, .mapped shape read write => shape.Lawful ∧ ∀ b a, shape.Alike (write b) a → read a = b

def Fields.Lawful : {α : Type} → Fields α → Prop
  | _, .nil => True
  | _, .cons name shape get set rest => shape.Lawful ∧ name.toList ∉ rest.names ∧
    (∀ a b, get (set a b) = b) ∧ rest.Untouched set ∧ rest.Keeps get ∧ rest.Lawful

end

/-! ## Fields set one after the other -/

namespace Fields

variable {α β : Type}

def update : {α : Type} → Fields α → α → List Char → α → α
  | _, .nil, _, _, x => x
  | _, .cons name _ get set rest, a, s, x =>
    if name.toList = s then set x (get a) else rest.update a s x

def Moves (a : α) (change : List Char → α → α) (name : List Char) (get : α → β) : Prop :=
  ∀ s x, get (change s x) = if name = s then get a else get x

def Follows : {α : Type} → Fields α → α → (List Char → α → α) → Prop
  | _, .nil => fun _ _ => True
  | _, .cons name _ get _ rest => fun a change =>
    Moves a change name.toList get ∧ rest.Follows a change

theorem get_update {fields : Fields α} {get : α → β} (keeps : fields.Keeps get) (a : α) (s : List Char)
    (x : α) : get (fields.update a s x) = get x := by
  induction fields with
  | nil => rfl
  | cons name shape _ set rest ih =>
    obtain ⟨here, keeps⟩ := keeps
    rw [update]
    split
    · exact here x _
    · exact ih keeps

theorem Follows.set {fields : Fields α} {a : α} {change : List Char → α → α} {set : α → β → α}
    {name : List Char} (follows : fields.Follows a change) (untouched : fields.Untouched set)
    (new : name ∉ fields.names) (b : β) :
    fields.Follows a fun s x => if name = s then set x b else change s x := by
  induction fields with
  | nil => trivial
  | cons other shape get _ rest ih =>
    obtain ⟨here, follows⟩ := follows
    obtain ⟨stays, untouched⟩ := untouched
    obtain ⟨apart, new⟩ := not_or.mp (mt List.mem_cons.mpr new)
    refine ⟨fun s x => ?_, ih follows untouched new⟩
    dsimp only
    split
    · case isTrue named =>
      subst named
      rw [stays, if_neg (Ne.symm apart)]
    · exact here s x

theorem follows_update {fields : Fields α} (lawful : fields.Lawful) (a : α) :
    fields.Follows a (fields.update a) := by
  induction fields with
  | nil => trivial
  | cons name shape get set rest ih =>
    obtain ⟨-, new, getSet, untouched, keeps, lawful⟩ := lawful
    refine ⟨fun s x => ?_, (ih lawful).set untouched new (get a)⟩
    rw [update]
    split
    · exact getSet x _
    · exact get_update keeps a s x

theorem Moves.foldl {a : α} {change : List Char → α → α} {name : List Char} {get : α → β}
    (moves : Moves a change name get) {ss : List (List Char)} {x : α}
    (known : get x = get a ∨ name ∈ ss) : get (ss.foldl (fun x s => change s x) x) = get a := by
  -- Once set, the field stays as it is in `a`, so it does not matter when its name comes.
  induction ss generalizing x with
  | nil =>
    rcases known with same | mem
    · exact same
    · cases mem
  | cons s ss ih =>
    apply ih
    rw [moves]
    split
    · exact .inl rfl
    · case isFalse other =>
      rcases known with same | mem
      · exact .inl same
      · exact .inr (List.mem_of_ne_of_mem other mem)

theorem Follows.agree {fields : Fields α} {a empty : α} {change : List Char → α → α}
    {ss : List (List Char)} {ms : List (List Char × Json)} (follows : fields.Follows a change)
    (spelled : fields.Spells empty a ms) (all : ∀ m ∈ ms, m.1 ∈ ss) :
    fields.Agree (ss.foldl (fun x s => change s x) empty) a := by
  induction fields generalizing ms with
  | nil => trivial
  | cons name shape get set rest ih =>
    obtain ⟨moves, follows⟩ := follows
    rcases spelled with ⟨same, spelled⟩ | ⟨j, others, rfl, -, spelled⟩
    · exact ⟨moves.foldl (.inl same.symm), ih follows spelled all⟩
    · obtain ⟨here, all⟩ := List.forall_mem_cons.mp all
      exact ⟨moves.foldl (.inr here), ih follows spelled all⟩

theorem names_sublist {fields : Fields α} {empty a : α} {ms : List (List Char × Json)}
    (spelled : fields.Spells empty a ms) : (ms.map Prod.fst).Sublist fields.names := by
  induction fields generalizing ms with
  | nil =>
    cases spelled
    exact .slnil
  | cons name shape get set rest ih =>
    rcases spelled with ⟨-, spelled⟩ | ⟨j, others, rfl, -, spelled⟩
    · exact (ih spelled).cons name.toList
    · exact (ih spelled).cons_cons name.toList

theorem nodup_names {fields : Fields α} (lawful : fields.Lawful) : fields.names.Nodup := by
  induction fields with
  | nil => exact List.nodup_nil
  | cons name shape get set rest ih =>
    obtain ⟨-, new, -, -, -, lawful⟩ := lawful
    exact List.nodup_cons.mpr ⟨new, ih lawful⟩

end Fields

/-! ## Decoding a spelling -/

theorem fieldsByName?_written {α : Type} {fields : FieldDecoders α} {update : List Char → α → α}
    {ms : List (List Char × Json)}
    (known : ∀ m ∈ ms, ∃ f, fields.find? (fun f => f.1.toList == m.1) = some f ∧
      ∀ a, f.2 a (written m.2) = some (update m.1 a))
    (distinct : (ms.map Prod.fst).Nodup) (closed : Bool) {seen : List (List Char)} (new : ∀ m ∈ ms, m.1 ∉ seen)
    (a : α) :
    fieldsByName? fields closed seen a (writtenMembers ms) = some (ms.foldl (fun a m => update m.1 a) a) := by
  induction ms generalizing seen a with
  | nil => rfl
  | cons m ms ih =>
    obtain ⟨s, j⟩ := m
    obtain ⟨⟨⟨label, set⟩, found, sets⟩, known⟩ := List.forall_mem_cons.mp known
    obtain ⟨here, new⟩ := List.forall_mem_cons.mp new
    obtain ⟨apart, distinct⟩ := List.nodup_cons.mp distinct
    have stillNew : ∀ m' ∈ ms, m'.1 ∉ s :: seen := by
      intro m' mem
      rw [List.mem_cons, not_or]
      exact ⟨fun same => apart (List.mem_map.mpr ⟨m', mem, same⟩), new m' mem⟩
    dsimp only at found sets
    rw [writtenMembers, fieldsByName?, Head.chars_compact, found]
    dsimp only
    rw [if_neg (by simpa using here), sets, Option.bind_some, ih known distinct stillNew]
    rfl

mutual

theorem Shape.ofWritten?_written : {α : Type} → (shape : Shape α) → shape.Lawful → {a : α} → {j : Json} →
    shape.Spells a j → shape.ofWritten? (written j) = some a
  | _, .text, _, s, _, spelled => by
    rw [spelled]
    change some (String.ofList ((s.toList.map escapedLetter).map Letter.char)) = some s
    rw [chars_escaped, String.ofList_toList]
  | _, .choice all name, found, a, _, spelled => by
    rw [spelled]
    change Written.named? all name (((name a).toList.map escapedLetter).map Letter.char) = some a
    rw [chars_escaped]
    exact found a
  | _, .list item, lawful, l, _, spelled => by
    obtain ⟨items, rfl, spelled⟩ := spelled
    change (writtenItems items).mapM (fun i => item.ofWritten? i.2) = some l
    rw [writtenItems_eq, List.mapM_map]
    exact mapM_eq_some (spelled.imp fun _ _ spelled => item.ofWritten?_written lawful spelled)
  | _, .keyed all name item, laws, l, _, spelled => by
    obtain ⟨found, lawful⟩ := laws
    obtain ⟨members, rfl, spelled⟩ := spelled
    rw [Shape.ofWritten?, written, Written.keyed?, writtenMembers_eq, List.mapM_map]
    refine mapM_eq_some (spelled.imp fun p m here => ?_)
    have key : Written.named? all name (Head.compact m.1).chars = some p.1 := by
      rw [Head.chars_compact, here.1]
      exact found p.1
    rw [Function.comp_apply, key, item.ofWritten?_written lawful here.2, Option.bind_some, Option.map_some]
  | _, .record name closed empty fields, laws, a, _, spelled => by
    obtain ⟨lawful, ext⟩ := laws
    obtain ⟨members, ordered, rfl, perm, spelled⟩ := spelled
    have known := fun m mem => fields.ofWritten?_written lawful spelled m (perm.subset mem)
    have distinct : (members.map Prod.fst).Nodup :=
      (perm.map Prod.fst).nodup_iff.mpr ((Fields.names_sublist spelled).nodup (Fields.nodup_names lawful))
    -- The members come in any order, and each sets the field of its name to what it is in `a`.
    have agree : fields.Agree ((members.map Prod.fst).foldl (fun x s => fields.update a s x) empty) a :=
      (Fields.follows_update lawful a).agree spelled fun m mem =>
        List.mem_map_of_mem (perm.symm.subset mem)
    have new : ∀ m ∈ members, m.1 ∉ [] := fun _ _ => List.not_mem_nil
    rw [List.foldl_map] at agree
    change fieldsByName? fields.ofWritten? closed [] empty (writtenMembers members) = some a
    rw [fieldsByName?_written known distinct closed new, ext _ _ agree]
  | _, .mapped shape read write, laws, b, _, spelled => by
    obtain ⟨lawful, back⟩ := laws
    obtain ⟨a, alike, spelled⟩ := spelled
    change (shape.ofWritten? (written _)).map read = some b
    rw [shape.ofWritten?_written lawful spelled, Option.map_some, back b a alike]

theorem Fields.ofWritten?_written : {α : Type} → (fields : Fields α) → fields.Lawful → {empty a : α} →
    {ms : List (List Char × Json)} → fields.Spells empty a ms → ∀ m ∈ ms, ∃ f,
      fields.ofWritten?.find? (fun f => f.1.toList == m.1) = some f ∧
        ∀ x, f.2 x (written m.2) = some (fields.update a m.1 x)
  | _, .nil, _, _, _, _, spelled, m, mem => by
    rw [spelled] at mem
    cases mem
  | _, .cons name shape get set rest, laws, empty, a, ms, spelled, m, mem => by
    obtain ⟨here, new, -, -, -, lawful⟩ := laws
    -- No two fields share a name, so a member of another field is found behind this one.
    have later {others : List (List Char × Json)} (spelled : rest.Spells empty a others)
        (mem : m ∈ others) : ∃ f, (Fields.cons name shape get set rest).ofWritten?.find?
          (fun f => f.1.toList == m.1) = some f ∧
          ∀ x, f.2 x (written m.2) = some ((Fields.cons name shape get set rest).update a m.1 x) := by
      obtain ⟨f, found, sets⟩ := rest.ofWritten?_written lawful spelled m mem
      have other : name.toList ≠ m.1 := fun same =>
        new (same ▸ (Fields.names_sublist spelled).subset (List.mem_map_of_mem mem))
      refine ⟨f, ?_, fun x => ?_⟩
      · rw [Fields.ofWritten?, List.find?_cons_of_neg (by simpa using other), found]
      · rw [Fields.update, if_neg other]
        exact sets x
    rcases spelled with ⟨-, spelled⟩ | ⟨j, others, rfl, spelledHere, spelled⟩
    · exact later spelled mem
    · rcases List.mem_cons.mp mem with rfl | mem
      · refine ⟨_, List.find?_cons_of_pos (by simp), fun x => ?_⟩
        change (shape.ofWritten? (written j)).map (set x) = _
        rw [Fields.update, if_pos rfl, shape.ofWritten?_written here spelledHere, Option.map_some]
      · exact later spelled mem

end

end Vitae.Profile
