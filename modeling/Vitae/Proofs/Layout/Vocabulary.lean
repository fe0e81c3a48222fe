import Vitae.Layout.Catalogue
import Vitae.Proofs.Reading.Fixed
import Vitae.Proofs.Reading.Section

namespace Vitae.Layout

open Tex

def commonWords : List String :=
  ["documentclass", "usepackage", "definecolor", "hypersetup", "pagestyle", "titleformat", "titlespacing",
    "bfseries", "color", "setlength", "setlist"]

def preambleWords : Layout → List String
  | .classic => ["normalsize", "titlerule", "parindent"]
  | .modern => ["columnsep", "large", "MakeUppercase", "titlerule"]
  | .detailed => ["parindent", "parskip", "MakeUppercase", "textcolor", "rule"]
  | .executiveBlue => ["parindent", "parskip", "large", "MakeUppercase", "rule"]
  | .executiveGray => ["parindent", "parskip", "MakeUppercase", "textcolor", "rule", "textbullet"]

def markupWords : Layout → List String
  | .classic => ["textit", "par", "large", "quad"]
  | .modern =>
    ["textit", "textcolor", "par", "large", "Huge", "MakeUppercase", "quad", "columnbreak"]
  | .detailed =>
    ["textit", "footnotesize", "par", "large", "Huge", "MakeUppercase", "columnbreak", "fill", "node",
      "paperwidth"]
  | .executiveBlue =>
    ["textit", "textcolor", "par", "large", "Huge", "MakeUppercase", "quad", "textwidth", "centering",
      "draw", "node", "rule"]
  | .executiveGray =>
    ["textit", "footnotesize", "par", "LARGE", "Huge", "MakeUppercase", "quad", "columnbreak",
      "textwidth", "centering", "fbox"]

def words (l : Layout) : List String :=
  commonWords ++ l.preambleWords ++ l.markupWords

def dialect (l : Layout) (guarded : Prop) : Dialect where
  words := l.words
  names := by cases l <;> decide
  guarded := guarded

def commands (l : Layout) : List String :=
  escapeWords ++ sharedWords ++ l.words

def vocabulary (l : Layout) : List String :=
  structuralWords ++ l.commands

variable {l : Layout} {guarded : Prop}

theorem mem_commands {w : String} (h : l.commands.contains w = true) :
    w ∈ (l.dialect guarded).commands :=
  List.contains_iff_mem.mp h

theorem markup_fixed {s : Tex} (h : legible l.commands s none 0 = true) :
    Markup (l.dialect guarded) s :=
  .fixed h

end Vitae.Layout
