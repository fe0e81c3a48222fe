import Vitae.Tex.Markup
import Vitae.Text.Blank

namespace Vitae.Tex

def escapeChar : Char → Tex
  | '\\' => control "textbackslash" ++ braced []
  | '&' => control "&"
  | '%' => control "%"
  | '#' => control "#"
  | '_' => control "_"
  | '$' => control "$"
  | '{' => ['\\', '{']
  | '}' => ['\\', '}']
  | '~' => control "textasciitilde" ++ braced []
  | '^' => control "textasciicircum" ++ braced []
  | c => [c]

def escape (s : List Char) : Tex :=
  s.flatMap escapeChar

def startsOption (t : Tex) : Bool :=
  match Text.trimStart t with
  | '[' :: _ => true
  | '*' :: _ => true
  | _ => false

/-- An empty group in front of a text that starts with an optional argument or a star, for a place right
after a line break, an item or the opening of an environment. Blanks do not hide the start, because TeX
skips them. -/
def guardLineStart (t : Tex) : Tex :=
  if startsOption t then braced [] ++ t else t

def escapeTrimmed (s : List Char) : Tex :=
  escape (Text.trim s)

@[simp] theorem escape_nil : escape [] = [] := rfl

@[simp] theorem escape_append (s t : List Char) : escape (s ++ t) = escape s ++ escape t := by
  simp [escape]

theorem escape_singleton (c : Char) : escape [c] = escapeChar c :=
  List.flatMap_singleton ..

theorem escapeChar_ne_nil (c : Char) : escapeChar c ≠ [] := by
  unfold escapeChar
  split <;> simp [control, braced]

@[simp] theorem escape_eq_nil_iff {s : List Char} : escape s = [] ↔ s = [] := by
  cases s with
  | nil => simp
  | cons c s => simp [escape, escapeChar_ne_nil]

end Vitae.Tex
