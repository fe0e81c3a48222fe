namespace Vitae

abbrev Tex := List Char

instance : Coe String Tex := ⟨String.toList⟩

namespace Tex

def braced (t : Tex) : Tex :=
  '{' :: (t ++ ['}'])

def bracketed (t : Tex) : Tex :=
  '[' :: (t ++ [']'])

def control (name : String) : Tex :=
  '\\' :: name.toList

def command (name : String) (argument : Tex) : Tex :=
  control name ++ braced argument

def opening (name : String) : Tex :=
  command "begin" name

def closing (name : String) : Tex :=
  command "end" name

/-- An environment with its body on lines of its own. `start` stands between the opening and the first
line end, for the arguments of the environment. -/
def environment (name : String) (start body : Tex) : Tex :=
  opening name ++ start ++ "\n" ++ body ++ "\n" ++ closing name

def join (separator : Tex) (parts : List Tex) : Tex :=
  List.intercalate separator parts

def joinPresent (separator : Tex) (parts : List Tex) : Tex :=
  join separator (parts.filter (!·.isEmpty))

def present (markup : Tex → Tex) (value : Tex) : Tex :=
  if value.isEmpty then [] else markup value

def styled (name : String) (value : Tex) : Tex :=
  present (command name) value

def coloured (colour : String) (value : Tex) : Tex :=
  present (fun v => command "textcolor" colour ++ braced v) value

def grouped (declarations value : Tex) : Tex :=
  present (fun v => braced (declarations ++ " " ++ v)) value

def breakLine (space : String) : Tex :=
  "\\\\" ++ bracketed space ++ "\n"

def itemize (items : List Tex) : Tex :=
  if items.isEmpty then [] else environment "itemize" [] (join "\n" items)

def item (text : Tex) : Tex :=
  "  \\item " ++ text

/-! ## Joined parts -/

theorem join_singleton (separator p : Tex) : join separator [p] = p := by
  simp [join, List.intercalate]

theorem join_cons_cons (separator p q : Tex) (parts : List Tex) :
    join separator (p :: q :: parts) = p ++ separator ++ join separator (q :: parts) := by
  simp [join, List.intercalate]

theorem join_cons (separator p : Tex) (parts : List Tex) :
    join separator (p :: parts) = p ++ parts.flatMap (separator ++ ·) := by
  induction parts generalizing p with
  | nil => simp [join_singleton]
  | cons q parts ih =>
      rw [join_cons_cons, ih, List.flatMap_cons, List.append_assoc, List.append_assoc]

theorem join_induction {separator : Tex} {P : Tex → Prop} {parts : List Tex} (ne : parts ≠ [])
    (one : ∀ p ∈ parts, P p) (more : ∀ p ∈ parts, ∀ t, P t → P (p ++ separator ++ t)) :
    P (join separator parts) := by
  induction parts with
  | nil => exact absurd rfl ne
  | cons p parts ih =>
      rw [List.forall_mem_cons] at one more
      cases parts with
      | nil =>
          rw [join_singleton]
          exact one.1
      | cons q parts =>
          rw [join_cons_cons]
          exact more.1 _ (ih (List.cons_ne_nil q parts) one.2 more.2)

/-! ## Parts that are present -/

@[simp] theorem present_nil (markup : Tex → Tex) : present markup [] = [] := rfl

@[simp] theorem joinPresent_nil (separator : Tex) : joinPresent separator [] = [] := rfl

theorem joinPresent_cons_nil (separator : Tex) (parts : List Tex) :
    joinPresent separator ([] :: parts) = joinPresent separator parts := by
  simp [joinPresent]

theorem itemize_eq_nil_iff {items : List Tex} : itemize items = [] ↔ items = [] := by
  cases items with
  | nil => simp [itemize]
  | cons i is => simp [itemize, environment, opening, command, control]

end Tex

end Vitae
