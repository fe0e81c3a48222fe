/-!
# Shapes

A shape says how the values of a type are written in a profile, whatever its format: as a text, one of a few
names, a list, a mapping by names, or a record of named fields. A record starts from its empty value, so each
of its fields may be left out.
-/

namespace Vitae.Profile

mutual

inductive Shape : Type → Type 1 where
  | text : Shape String
  | choice {α : Type} (all : List α) (name : α → String) : Shape α
  | list {α : Type} (item : Shape α) : Shape (List α)
  | keyed {κ α : Type} (all : List κ) (name : κ → String) (item : Shape α) : Shape (List (κ × α))
  | record {α : Type} (name : String) (closed : Bool) (empty : α) (fields : Fields α) : Shape α
  /-- The values of another shape, taken for those of a type. -/
  | mapped {α β : Type} (shape : Shape α) (read : α → β) (write : β → α) : Shape β

inductive Fields : Type → Type 1 where
  | nil {α : Type} : Fields α
  | cons {α β : Type} (name : String) (shape : Shape β) (get : α → β) (set : α → β → α)
      (rest : Fields α) : Fields α

end

end Vitae.Profile
