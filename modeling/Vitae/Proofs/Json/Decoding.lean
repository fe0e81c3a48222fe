import Vitae.Proofs.Json.Skipping
import Mathlib.Data.List.Forall2

/-!
# What readers decide

Each reader of a value has a function of written values beside it, which gives the value that is read or nothing. The
reader gets that value whatever the blanks and whatever follows, and fails if there is none.
-/

namespace Vitae.Json

/-! ## Decoding values -/

namespace Written

variable {α κ : Type}

def string? : Written → Option (List Char)
  | .string s => some (s.map Letter.char)
  | _ => none

def named? (all : List α) (label : α → String) (s : List Char) : Option α :=
  all.find? fun a => (label a).toList == s

def isNull : Written → Bool
  | .null => true
  | _ => false

def choice? (all : List α) (label : α → String) : Written → Option α
  | .string s => named? all label (s.map Letter.char)
  | .object ((h, v) :: members) _ =>
    (named? all label h.chars).bind fun a => if v.isNull && members.isEmpty then some a else none
  | _ => none

def list? (item : Written → Option α) : Written → Option (List α)
  | .array items _ => items.mapM fun i => item i.2
  | _ => none

def keyed? (key : List Char → Option κ) (item : Written → Option α) : Written → Option (List (κ × α))
  | .object members _ => members.mapM fun m => (key m.1.chars).bind fun k => (item m.2).map fun a => (k, a)
  | _ => none

end Written

section

variable {α β : Type} {f : β → Option α} {l : List β}

theorem mapM_eq_some {as : List α} (h : List.Forall₂ (fun a b => f b = some a) as l) : l.mapM f = some as := by
  induction h with
  | nil => rfl
  | cons here _ ih =>
    rw [List.mapM_cons, here, ih]
    rfl

theorem mapM_eq_none {b : β} (mem : b ∈ l) (missing : f b = none) : l.mapM f = none := by
  induction l with
  | nil => cases mem
  | cons c l ih =>
    rw [List.mapM_cons]
    rcases List.mem_cons.mp mem with rfl | later
    · rw [missing]
      rfl
    · rw [ih later]
      cases f c <;> rfl

end

/-! ### Records -/

abbrev FieldDecoders (α : Type) := List (String × (α → Written → Option α))

variable {α : Type}

def fieldsInOrder? : FieldDecoders α → α → List (Gaps × Written) → Option α
  | _, a, [] => some a
  | [], _, _ :: _ => none
  | (_, set) :: fields, a, (_, v) :: items => (set a v).bind fun a => fieldsInOrder? fields a items

def fieldsByName? (fields : FieldDecoders α) (closed : Bool) : List (List Char) → α → List (Head × Written) → Option α
  | _, a, [] => some a
  | seen, a, (h, v) :: members =>
    match fields.find? (fun f => f.1.toList == h.chars) with
    | some (_, set) =>
      if seen.contains h.chars then none
      else (set a v).bind fun a => fieldsByName? fields closed (h.chars :: seen) a members
    | none => if closed then none else fieldsByName? fields closed seen a members

def Written.record? (closed : Bool) (fields : FieldDecoders α) (empty : α) : Written → Option α
  | .array items _ => fieldsInOrder? fields empty items
  | .object members _ => fieldsByName? fields closed [] empty members
  | _ => none

namespace Reader

/-! ## Readers that fail -/

variable {β : Type} {r : Reader α} {f : α → Reader β} {s t k : List Char} {a : α} {o : Option α} {o' : α → Option β}

def Fails (r : Reader α) (s : List Char) : Prop :=
  ∀ p, ∃ e, r ⟨s, p⟩ = .error e

theorem Fails.failHere (cause : Cause) (s : List Char) : Fails (failHere cause : Reader α) s :=
  fun _ => ⟨_, rfl⟩

theorem Fails.failAhead (fault : Fault) (s : List Char) : Fails (failAhead fault : Reader α) s :=
  fun _ => ⟨_, rfl⟩

theorem Fails.bind (h : Fails r s) (f : α → Reader β) : Fails (r >>= f) s := by
  intro p
  obtain ⟨e, failed⟩ := h p
  refine ⟨e, ?_⟩
  change StateT.bind r f ⟨s, p⟩ = _
  rw [StateT.bind, failed]
  rfl

theorem Fails.behind (read : Reads r s a t) (h : Fails (f a) t) : Fails (r >>= f) s := by
  intro p
  obtain ⟨q, same⟩ := Continues.of_reads read f p
  obtain ⟨e, failed⟩ := h q
  exact ⟨e, same.trans failed⟩

theorem Fails.always (h : ∀ a t, Fails (f a) t) (r : Reader α) (s : List Char) : Fails (r >>= f) s := by
  intro p
  change ∃ e, StateT.bind r f ⟨s, p⟩ = _
  rw [StateT.bind]
  cases r ⟨s, p⟩ with
  | error e => exact ⟨e, rfl⟩
  | ok read => exact h read.1 read.2.rest read.2.position

theorem Fails.wrongKind (expected : String) (s : List Char) : Fails (wrongKind expected : Reader α) s :=
  .always (fun _ => .failHere _) found s

theorem Fails.failAtName (p : Profile.Problem) (s : List Char) : Fails (failAtName p : Reader α) s := by
  refine .always (fun c t => ?_) _ s
  split
  · exact .always (fun _ => .failHere _) _ t
  · exact .failHere _ t

/-! ## Readers that decide -/

/-- From the text, the reader gets the value that is given and leaves the rest. It fails if none is given. -/
def Settles (r : Reader α) (s : List Char) (o : Option α) (k : List Char) : Prop :=
  match o with
  | some a => Reads r s a k
  | none => Fails r s

theorem Settles.none (h : Fails r s) : Settles r s none k :=
  h

theorem Settles.some (h : Reads r s a k) : Settles r s (some a) k :=
  h

theorem Settles.behind {o : Option β} (read : Reads r s a t) (h : Settles (f a) t o k) : Settles (r >>= f) s o k := by
  cases o with
  | none => exact Fails.behind read h
  | some b => exact read.bind h

theorem Settles.bind (h : Settles r s o t) (next : ∀ a, o = Option.some a → Settles (f a) t (o' a) k) :
    Settles (r >>= f) s (o.bind o') k := by
  cases o with
  | none => exact Fails.bind h f
  | some a => exact .behind h (next a rfl)

theorem Settles.map (h : Settles r s o k) (g : α → β) : Settles (do return g (← r)) s (o.map g) k := by
  cases o with
  | none => exact Fails.bind h _
  | some a => exact .some (Reads.bind h (.pure (g a) k))

theorem Settles.followed {f : α → Reader α} (h : Settles r s o t) (next : ∀ a, Reads (f a) t a k) :
    Settles (r >>= f) s o k := by
  cases o with
  | none => exact Fails.bind h f
  | some a => exact .some (Reads.bind h (next a))

def Decides (r : Reader α) (f : Written → Option α) : Prop :=
  ∀ (v : Written) (g : Gap) (k : List Char), Settles r (g.1 ++ (v.text ++ k)) (f v) k

/-! ### Texts and names -/

theorem decides_text : Decides Reader.text fun v => v.string?.map String.ofList := by
  intro v g k
  obtain ⟨c, t, start, startsWith⟩ := v.exists_start
  cases v with
  | string s =>
    rw [Written.text, quoted_append]
    exact .some ((Reads.gap g rfl _).bind ((Reads.advance '"' _).bind ((Reads.stringBody s k).bind (.pure _ k))))
  | _ =>
    rw [start]
    refine .none (Fails.behind (Reads.gap g startsWith.visible _) ?_)
    split
    · exact .failHere _ _
    · case h_2 same =>
      cases same
      obtain ⟨s, other⟩ := startsWith.string rfl
      cases other
    · exact .wrongKind _ _

theorem settles_chosen (all : List α) (label : α → String) (s k : List Char) :
    Settles (chosen all label s) k (Written.named? all label s) k := by
  rw [chosen, Written.named?]
  cases all.find? fun a => (label a).toList == s with
  | none => exact .none (.failHere _ k)
  | some a => exact .some (.pure a k)

/-- A name is also read from an object that has it as its only member, with the value null. -/
theorem settles_choice_object (all : List α) (label : α → String) (members : List (Head × Written)) (last g : Gap)
    (k : List Char) : Settles (choice all label) (g.1 ++ ((Written.object members last).text ++ k))
      (Written.choice? all label (.object members last)) k := by
  rw [Written.object_append]
  refine .behind (Reads.gap g rfl _) (.behind (Reads.advance '\x7b' _) ?_)
  cases members with
  | nil => exact .none (Fails.behind (Reads.gap last rfl k) (.wrongKind _ _))
  | cons m members =>
    obtain ⟨h, v⟩ := m
    obtain ⟨c, t, start, startsWith⟩ := v.exists_start
    have name := Reads.stringBody h.name (h.colon.1 ++ ':' ::
      (h.value.1 ++ (v.text ++ (membersText false members ++ (last.1 ++ '\x7d' :: k)))))
    have chosen := settles_chosen all label h.chars (h.colon.1 ++ ':' ::
      (h.value.1 ++ (v.text ++ (membersText false members ++ (last.1 ++ '\x7d' :: k)))))
    have front : h.toGaps.text true = h.part.1 := rfl
    rw [membersText_append, quoted_append, front, Written.choice?]
    refine .behind (Reads.gap h.part rfl _) (.behind (Reads.advance '"' _) (.behind name ?_))
    refine Settles.bind chosen fun a _ => .behind (Reads.colon h.colon _) ?_
    cases v with
    | null =>
      refine .behind (Reads.gap h.value rfl _) (.behind (Reads.ident "null".toList _) ?_)
      cases members with
      | nil => exact .behind (Reads.gap last rfl k) (.some ((Reads.advance '\x7d' k).bind (.pure a k)))
      | cons m members =>
        obtain ⟨h', v'⟩ := m
        rw [membersText_append, Gaps.text_append]
        exact .none (Fails.behind (Reads.gap h'.comma rfl _) (.failHere _ _))
    | _ =>
      rw [start]
      refine .none (Fails.behind (Reads.gap h.value startsWith.visible _) ?_)
      split
      · exact Fails.bind (.failHere _ _) _
      · case h_2 same =>
        cases same
        cases startsWith.null rfl
      · exact Fails.bind (.wrongKind _ _) _

theorem decides_choice (all : List α) (label : α → String) :
    Decides (choice all label) (Written.choice? all label) := by
  intro v g k
  obtain ⟨c, t, start, startsWith⟩ := v.exists_start
  cases v with
  | string s =>
    rw [Written.text, quoted_append]
    refine .behind (Reads.gap g rfl _) (.behind (Reads.advance '"' _) (.behind (Reads.stringBody s k) ?_))
    exact settles_chosen all label _ k
  | object members last => exact settles_choice_object all label members last g k
  | _ =>
    rw [start]
    refine .none (Fails.behind (Reads.gap g startsWith.visible _) ?_)
    split
    · exact .failHere _ _
    · case h_2 same =>
      cases same
      obtain ⟨s, other⟩ := startsWith.string rfl
      cases other
    · case h_3 same =>
      cases same
      obtain ⟨members, last, other⟩ := startsWith.object rfl
      cases other
    · exact .failAhead _ _

/-! ### Lists -/

theorem Reads.noItem (first : Bool) (last : Gap) (k : List Char) :
    Reads (anotherItem first) (last.1 ++ ']' :: k) false (']' :: k) :=
  (Reads.gap last rfl k).bind (.pure false _)

theorem Reads.anotherItem {c : Char} (first : Bool) (g : Gaps) (visible : isSpace c = false) (part : c ≠ ']')
    (k : List Char) : Reads (Reader.anotherItem first) (g.text first ++ c :: k) true (c :: k) := by
  cases first with
  | true =>
    refine (Reads.gap g.part visible k).bind ?_
    split
    · case h_1 none => cases none
    · case h_2 same =>
      cases same
      exact absurd rfl part
    · exact .pure true _
  | false =>
    rw [Gaps.text_append]
    refine (Reads.gap g.comma rfl _).bind ((Reads.advance ',' _).bind ((Reads.gap g.part visible k).bind ?_))
    split
    · case h_1 same =>
      cases same
      exact absurd rfl part
    · exact .pure true _
    · case h_3 none => cases none

theorem Reads.endOfList (last : Gap) (k : List Char) : Reads Reader.endOfList (last.1 ++ ']' :: k) () k :=
  (Reads.gap last rfl k).bind (.advance ']' k)

theorem Fails.endOfList {c : Char} (first : Bool) (g : Gaps) (visible : isSpace c = false) (part : c ≠ ']')
    (k : List Char) : Fails Reader.endOfList (g.text first ++ c :: k) := by
  cases first with
  | true =>
    refine Fails.behind (Reads.gap g.part visible k) ?_
    split
    · case h_1 same =>
      cases same
      exact absurd rfl part
    · refine .always (fun _ => .always (fun next t => ?_) _) _ _
      split <;> exact .failAhead _ t
    · exact .failAhead _ _
    · case h_4 none => cases none
  | false =>
    rw [Gaps.text_append]
    refine Fails.behind (Reads.gap g.comma rfl _) (.always (fun _ => .always (fun next t => ?_) _) _ _)
    split <;> exact .failAhead _ t

variable {item : Reader α} {f : Written → Option α}

theorem settles_items (decides : Decides item f) (items : List (Gaps × Written)) {n : Nat}
    (enough : items.length < n) (first : Bool) (last : Gap) (k : List Char) :
    Settles (Reader.items item first n) (itemsText first items ++ (last.1 ++ ']' :: k))
      (items.mapM fun i => f i.2) (']' :: k) := by
  induction items generalizing n first with
  | nil =>
    obtain ⟨n, rfl⟩ := Nat.exists_eq_succ_of_ne_zero (Nat.ne_zero_of_lt enough)
    exact .some ((Reads.noItem first last k).bind (.pure [] _))
  | cons i items ih =>
    obtain ⟨n, rfl⟩ := Nat.exists_eq_succ_of_ne_zero (Nat.ne_zero_of_lt enough)
    obtain ⟨g, v⟩ := i
    obtain ⟨c, t, start, startsWith⟩ := v.exists_start
    have here := decides v .none (itemsText false items ++ (last.1 ++ ']' :: k))
    rw [itemsText, List.append_assoc, List.append_assoc, List.mapM_cons]
    rw [start] at here ⊢
    refine .behind (Reads.anotherItem first g startsWith.visible startsWith.not_closing _) ?_
    refine Settles.bind here fun a _ => ?_
    refine Settles.bind (ih (Nat.lt_of_succ_lt_succ enough) false) fun l _ => ?_
    exact .some (.pure (a :: l) _)

theorem starts_pos (v : Written) : 0 < starts v := by
  cases v <;> exact Nat.succ_pos _

theorem length_le_itemStarts (items : List (Gaps × Written)) : items.length ≤ itemStarts items := by
  induction items with
  | nil => exact Nat.le_refl 0
  | cons i items ih =>
    have one := starts_pos i.2
    rw [itemStarts, List.length_cons]
    omega

theorem length_le_memberStarts (members : List (Head × Written)) : members.length ≤ memberStarts members := by
  induction members with
  | nil => exact Nat.le_refl 0
  | cons m members ih =>
    have one := starts_pos m.2
    rw [memberStarts, List.length_cons]
    omega

/-- There are at most as many items as characters, so a reader that may take that many turns gets to the end. -/
theorem length_lt_items (items : List (Gaps × Written)) (k : List Char) :
    items.length < (itemsText true items ++ k).length + 1 := by
  have few := Nat.le_trans (length_le_itemStarts items) (itemStarts_le items true)
  rw [List.length_append]
  omega

theorem length_lt_members (members : List (Head × Written)) (k : List Char) :
    members.length < (membersText true members ++ k).length + 1 := by
  have few := Nat.le_trans (length_le_memberStarts members) (memberStarts_le members true)
  rw [List.length_append]
  omega

theorem decides_list (decides : Decides item f) : Decides (list item) (Written.list? f) := by
  intro v g k
  obtain ⟨c, t, start, startsWith⟩ := v.exists_start
  cases v with
  | array items last =>
    have enough := length_lt_items items (last.1 ++ ']' :: k)
    have read := settles_items decides items enough true last k
    rw [Written.array_append, Written.list?]
    refine .behind (Reads.gap g rfl _) (.behind (Reads.advance '[' _) (.behind (Reads.remaining _) ?_))
    exact read.followed fun l => (Reads.endOfList .none k).bind (.pure l k)
  | _ =>
    rw [start]
    refine .none (Fails.behind (Reads.gap g startsWith.visible _) ?_)
    split
    · exact .failHere _ _
    · case h_2 same =>
      cases same
      obtain ⟨items, last, other⟩ := startsWith.array rfl
      cases other
    · exact .wrongKind _ _

/-! ### Objects -/

theorem Reads.noName (first : Bool) (last : Gap) (k : List Char) :
    Reads (anotherName first) (last.1 ++ '\x7d' :: k) false ('\x7d' :: k) :=
  (Reads.gap last rfl k).bind (.pure false _)

theorem Reads.anotherName (first : Bool) (g : Gaps) (k : List Char) :
    Reads (Reader.anotherName first) (g.text first ++ '"' :: k) true ('"' :: k) := by
  cases first with
  | true => exact (Reads.gap g.part rfl k).bind (.pure true _)
  | false =>
    rw [Gaps.text_append]
    exact (Reads.gap g.comma rfl _).bind ((Reads.advance ',' _).bind ((Reads.gap g.part rfl k).bind (.pure true _)))

variable {κ : Type} {key : List Char → Reader κ} {key? : List Char → Option κ}

theorem settles_entries (known : ∀ s k, Settles (key s) k (key? s) k) (decides : Decides item f)
    (members : List (Head × Written)) {n : Nat} (enough : members.length < n) (first : Bool) (last : Gap)
    (k : List Char) : Settles (entries key item first n) (membersText first members ++ (last.1 ++ '\x7d' :: k))
      (members.mapM fun m => (key? m.1.chars).bind fun a => (f m.2).map fun b => (a, b)) ('\x7d' :: k) := by
  induction members generalizing n first with
  | nil =>
    obtain ⟨n, rfl⟩ := Nat.exists_eq_succ_of_ne_zero (Nat.ne_zero_of_lt enough)
    exact .some ((Reads.noName first last k).bind (.pure [] _))
  | cons m members ih =>
    obtain ⟨n, rfl⟩ := Nat.exists_eq_succ_of_ne_zero (Nat.ne_zero_of_lt enough)
    obtain ⟨h, v⟩ := m
    have here := decides v h.value (membersText false members ++ (last.1 ++ '\x7d' :: k))
    have name := Reads.memberName h (h.colon.1 ++ ':' ::
      (h.value.1 ++ (v.text ++ (membersText false members ++ (last.1 ++ '\x7d' :: k)))))
    have parts : ((h, v) :: members).mapM
        (fun m => (key? m.1.chars).bind fun a => (f m.2).map fun b => (a, b)) =
        (key? h.chars).bind fun a => (f v).bind fun b => (members.mapM fun m =>
          (key? m.1.chars).bind fun a => (f m.2).map fun b => (a, b)).bind fun l => some ((a, b) :: l) := by
      rw [List.mapM_cons]
      cases key? h.chars <;> cases f v <;> rfl
    rw [membersText_append, parts]
    rw [quoted_append] at name ⊢
    refine .behind (Reads.anotherName first h.toGaps _) (.behind name ?_)
    refine Settles.bind (known _ _) fun a _ => .behind (Reads.colon h.colon _) ?_
    refine Settles.bind here fun b _ => ?_
    refine Settles.bind (ih (Nat.lt_of_succ_lt_succ enough) false) fun l _ => ?_
    exact .some (.pure ((a, b) :: l) _)

theorem decides_keyed (known : ∀ s k, Settles (key s) k (key? s) k) (decides : Decides item f) :
    Decides (keyed key item) (Written.keyed? key? f) := by
  intro v g k
  obtain ⟨c, t, start, startsWith⟩ := v.exists_start
  cases v with
  | object members last =>
    have enough := length_lt_members members (last.1 ++ '\x7d' :: k)
    have read := settles_entries known decides members enough true last k
    rw [Written.object_append, Written.keyed?]
    refine .behind (Reads.gap g rfl _) (.behind (Reads.advance '\x7b' _) (.behind (Reads.remaining _) ?_))
    exact read.followed fun l => (Reads.advance '\x7d' k).bind (.pure l k)
  | _ =>
    rw [start]
    refine .none (Fails.behind (Reads.gap g startsWith.visible _) ?_)
    split
    · exact .failHere _ _
    · case h_2 same =>
      cases same
      obtain ⟨members, last, other⟩ := startsWith.object rfl
      cases other
    · exact .wrongKind _ _

/-! ### Records -/

def Beside (readers : FieldReaders α) (decoders : FieldDecoders α) : Prop :=
  List.Forall₂ (fun r d => r.1 = d.1 ∧ ∀ a, Decides (r.2 a) (d.2 a)) readers decoders

variable {readers : FieldReaders α} {decoders : FieldDecoders α}

theorem settles_fieldsInOrder (beside : Beside readers decoders) (items : List (Gaps × Written)) (first : Bool)
    (a : α) (last : Gap) (k : List Char) :
    Settles (fieldsInOrder readers first a >>= fun a => Reader.endOfList >>= fun _ => pure a)
      (itemsText first items ++ (last.1 ++ ']' :: k)) (fieldsInOrder? decoders a items) k := by
  induction beside generalizing items first a with
  | nil =>
    cases items with
    | nil => exact .behind (.pure a _) (.some ((Reads.endOfList last k).bind (.pure a k)))
    | cons i items =>
      obtain ⟨g, v⟩ := i
      obtain ⟨c, t, start, startsWith⟩ := v.exists_start
      rw [itemsText, List.append_assoc, List.append_assoc, start]
      -- An item is left over.
      refine .behind (.pure a _) (.none (Fails.bind ?_ _))
      exact .endOfList first g startsWith.visible startsWith.not_closing _
  | @cons r d readers decoders here beside ih =>
    obtain ⟨label, set⟩ := r
    obtain ⟨label', set'⟩ := d
    cases items with
    | nil =>
      rw [fieldsInOrder, bind_assoc]
      -- Fields are left over, and stay as they are.
      refine .behind (Reads.noItem first last k) ?_
      exact .behind (.pure a _) (.some ((Reads.endOfList .none k).bind (.pure a k)))
    | cons i items =>
      obtain ⟨g, v⟩ := i
      obtain ⟨c, t, start, startsWith⟩ := v.exists_start
      have field := here.2 a v .none (itemsText false items ++ (last.1 ++ ']' :: k))
      rw [itemsText, List.append_assoc, List.append_assoc, fieldsInOrder, bind_assoc]
      rw [start] at field ⊢
      refine .behind (Reads.anotherItem first g startsWith.visible startsWith.not_closing _) ?_
      rw [if_pos rfl, bind_assoc]
      exact Settles.bind field fun a _ => ih items false a

theorem Beside.find? (beside : Beside readers decoders) (s : List Char) :
    (∃ r d, readers.find? (fun f => f.1.toList == s) = some r ∧ decoders.find? (fun f => f.1.toList == s) = some d ∧
        ∀ a, Decides (r.2 a) (d.2 a)) ∨
      readers.find? (fun f => f.1.toList == s) = none ∧ decoders.find? (fun f => f.1.toList == s) = none := by
  induction beside with
  | nil => exact .inr ⟨rfl, rfl⟩
  | @cons r d readers decoders here _ ih =>
    rw [List.find?_cons, List.find?_cons, here.1]
    split
    · exact .inl ⟨r, d, rfl, rfl, here.2⟩
    · exact ih

theorem settles_fieldsByName (beside : Beside readers decoders) (closed : Bool) (members : List (Head × Written))
    {n : Nat} (enough : members.length < n) (first : Bool) (seen : List (List Char)) (a : α) (last : Gap)
    (k : List Char) :
    Settles (fieldsByName readers closed first seen a n) (membersText first members ++ (last.1 ++ '\x7d' :: k))
      (fieldsByName? decoders closed seen a members) ('\x7d' :: k) := by
  induction members generalizing n first seen a with
  | nil =>
    obtain ⟨n, rfl⟩ := Nat.exists_eq_succ_of_ne_zero (Nat.ne_zero_of_lt enough)
    exact .some ((Reads.noName first last k).bind (.pure a _))
  | cons m members ih =>
    obtain ⟨n, rfl⟩ := Nat.exists_eq_succ_of_ne_zero (Nat.ne_zero_of_lt enough)
    obtain ⟨h, v⟩ := m
    have fewer := Nat.lt_of_succ_lt_succ enough
    have name := Reads.memberName h (h.colon.1 ++ ':' ::
      (h.value.1 ++ (v.text ++ (membersText false members ++ (last.1 ++ '\x7d' :: k)))))
    rw [membersText_append]
    rw [quoted_append] at name ⊢
    refine .behind (Reads.anotherName first h.toGaps _) (.behind name ?_)
    rw [fieldsByName?]
    rcases beside.find? h.chars with ⟨⟨label, set⟩, ⟨label', set'⟩, found, found', decides⟩ | ⟨missing, missing'⟩
    · have value := decides a v h.value (membersText false members ++ (last.1 ++ '\x7d' :: k))
      rw [found, found']
      dsimp only
      by_cases repeated : seen.contains h.chars = true
      · rw [if_pos repeated, if_pos repeated]
        exact .none (.failAtName _ _)
      · rw [if_neg repeated, if_neg repeated]
        exact .behind (Reads.colon h.colon _) (Settles.bind value fun a _ => ih fewer false _ a)
    · rw [missing, missing']
      cases closed with
      | true => exact .none (.failAtName _ _)
      | false =>
        -- the value of an unknown field is skipped, whatever it is
        have skipped := Reads.skipValue v h.value (.behind_members members last k)
        exact .behind (Reads.colon h.colon _) (.behind skipped (ih fewer false seen a))

theorem decides_record (beside : Beside readers decoders) (label : String) (closed : Bool) (empty : α) :
    Decides (record label closed readers empty) (Written.record? closed decoders empty) := by
  intro v g k
  obtain ⟨c, t, start, startsWith⟩ := v.exists_start
  cases v with
  | array items last =>
    rw [Written.array_append]
    refine .behind (Reads.gap g rfl _) (.behind (Reads.advance '[' _) ?_)
    exact settles_fieldsInOrder beside items true empty last k
  | object members last =>
    have enough := length_lt_members members (last.1 ++ '\x7d' :: k)
    have read := settles_fieldsByName beside closed members enough true [] empty last k
    rw [Written.object_append, Written.record?]
    refine .behind (Reads.gap g rfl _) (.behind (Reads.advance '\x7b' _) (.behind (Reads.remaining _) ?_))
    exact read.followed fun a => (Reads.advance '\x7d' k).bind (.pure a k)
  | _ =>
    rw [start]
    refine .none (Fails.behind (Reads.gap g startsWith.visible _) ?_)
    split
    · exact .failHere _ _
    · case h_2 same =>
      cases same
      obtain ⟨items, last, other⟩ := startsWith.array rfl
      cases other
    · case h_3 same =>
      cases same
      obtain ⟨members, last, other⟩ := startsWith.object rfl
      cases other
    · exact .wrongKind _ _

end Reader

end Vitae.Json
