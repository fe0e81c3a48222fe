import Vitae.Tex.Markup
import Vitae.Text.Blank

namespace Vitae.Layout

open Tex

def declare (name : String) (arguments : List Tex) : Tex :=
  control name ++ arguments.flatten

def package (name : String) : Tex :=
  declare "usepackage" [braced name]

def packageWith (options name : String) : Tex :=
  declare "usepackage" [bracketed options, braced name]

def colourName (name rgb : String) : Tex :=
  declare "definecolor" [braced name, braced "RGB", braced rgb]

def articleLines : List Tex :=
  [declare "documentclass" [bracketed "10pt,a4paper", braced "article"],
    packageWith "utf8" "inputenc",
    packageWith "T1" "fontenc"]

def source (preamble : List Tex) (body : Tex) : Tex :=
  join "\n" preamble ++ "\n\n" ++ opening "document" ++ "\n\n" ++ Text.trim body ++ "\n\n"
    ++ closing "document"

end Vitae.Layout
