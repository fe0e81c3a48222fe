import Vitae.Layout.Masthead
import Vitae.Layout.Preamble
import Vitae.Section

namespace Vitae.Layout.Modern

open Tex

def preamble : List Tex :=
  articleLines ++
    [packageWith "margin=1cm" "geometry",
      package "xcolor",
      package "enumitem",
      package "titlesec",
      package "parskip",
      package "fontawesome5",
      package "multicol",
      package "hyperref",
      [],
      colourName "primaryblue" "0,102,204",
      colourName "darkblue" "0,51,102",
      [],
      command "pagestyle" "empty",
      declare "setlength" [braced (control "columnsep"), braced "1cm"],
      command "hypersetup" "colorlinks=true, linkcolor=darkblue, urlcolor=primaryblue",
      [],
      command "titleformat" (control "section"),
      "  " ++ braced (control "large" ++ control "bfseries" ++ command "color" "primaryblue"),
      "  " ++ braced [] ++ braced "0pt",
      "  " ++ braced (control "MakeUppercase"),
      "  " ++ bracketed (control "titlerule"),
      declare "titlespacing" [braced (control "section"), braced "0pt", braced "12pt", braced "8pt"],
      declare "setlist" [bracketed "itemize", braced "leftmargin=1.2em, itemsep=1pt, topsep=2pt"]]

def left : List SectionKey :=
  [.summary, .experience, .football]

def right : List SectionKey :=
  [.achievements, .skills, .education, .references, .languages, .portfolio, .personalAttributes]

def entryHeader (h : EntryHeader) : Tex :=
  let second := joinPresent (" " ++ control "hfill" ++ " ")
    [coloured "primaryblue" (styled "textbf" h.organization), styled "textit" h.dates]
  joinPresent "\\\\\n" [styled "textbf" h.title, second]

def activities (text : Tex) : Tex :=
  control "par" ++ braced (control "small" ++ command "textit" ("Activities: " ++ text))

def entryGap : Tex :=
  "\n\n" ++ command "vspace" "4pt" ++ "\n\n"

def style : SectionStyle where
  heading := iconHeading
  wrap _ body := body
  experience :=
    { header := entryHeader
      listOpening := opening "itemize"
      separator := entryGap }
  education :=
    { header := entryHeader
      activities := activities
      separator := entryGap }

def header (m : Masthead) : Tex :=
  let block := joinPresent (breakLine "4pt")
    [grouped (control "Huge" ++ control "bfseries" ++ command "color" "darkblue")
        (styled "MakeUppercase" m.name),
      grouped (control "large" ++ command "color" "primaryblue") (m.headline (command "textbf")),
      grouped (control "small") (joinPresent (" " ++ control "quad" ++ " ") m.contactParts)]
  present (environment "center" []) block

def body (d : Document) : Tex :=
  let leftColumn := style.sections d left
  let rightColumn :=
    joinPresent "\n\n" [style.sections d right, style.customSections d.customSections]
  let columns := environment "multicols" (braced "2")
    (leftColumn ++ "\n\n" ++ control "columnbreak" ++ "\n\n" ++ rightColumn)
  joinPresent "\n\n" [header (.ofIdentity d.identity), columns]

end Vitae.Layout.Modern
