import Vitae.Text.Line
import Vitae.Text.Search
import Vitae.Tex.Escape
import Vitae.Tex.Target

namespace Vitae.Body

open Text Tex

abbrev Record := List (List Char)

def groupRecords : List (List Char) → List Record
  | [] => []
  | [] :: ls => groupRecords ls
  | l :: ls =>
    match ls with
    | [] => [[l]]
    | [] :: ls => [l] :: groupRecords ls
    | l' :: ls' =>
      match groupRecords (l' :: ls') with
      | [] => [[l]]
      | r :: rs => (l :: r) :: rs

def records (text : List Char) : List Record :=
  groupRecords (trimmedLines text)

def rowGap : Tex :=
  "\n\n" ++ command "vspace" "6pt" ++ "\n\n"

def contactLine (line : List Char) : Tex :=
  match stripPrefixNoCase? "phone:".toList line with
  | some number => control "faPhone" ++ control " " ++ escapeTrimmed number
  | none =>
    match stripPrefixNoCase? "email:".toList line with
    | some address =>
      match Target.mailto? address with
      | some target =>
        control "faEnvelope" ++ control " " ++ Target.href target (escapeTrimmed address)
      | none => control "faEnvelope"
    | none => guardLineStart (escape line)

def recordBlock : Record → Tex
  | [] => []
  | name :: rest =>
    join "\\\\\n" (command "textbf" (escape name) :: rest.map contactLine)

def halfWidth (block : Tex) : Tex :=
  environment "minipage" (bracketed "t" ++ braced ("0.48" ++ control "linewidth"))
    (control "small" ++ "\n" ++ block)

def rows : List Record → List Tex
  | [] => []
  | [r] => [braced (control "small" ++ "\n" ++ recordBlock r ++ "\n")]
  | l :: r :: rs =>
    (halfWidth (recordBlock l) ++ "\n" ++ control "hfill" ++ "\n" ++ halfWidth (recordBlock r))
      :: rows rs

def referenceBlocks (text : List Char) : Tex :=
  join rowGap (rows (records text))

theorem flatten_groupRecords (ls : List (List Char)) :
    (groupRecords ls).flatten = ls.filter (!·.isEmpty) := by
  fun_induction groupRecords ls <;> simp_all

theorem flatten_records (text : List Char) :
    (records text).flatten = (trimmedLines text).filter (!·.isEmpty) :=
  flatten_groupRecords _

end Vitae.Body
