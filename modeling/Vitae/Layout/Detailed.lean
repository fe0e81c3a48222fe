import Vitae.Layout.Masthead
import Vitae.Layout.Preamble
import Vitae.Section

namespace Vitae.Layout.Detailed

open Tex

def preamble : List Tex :=
  articleLines ++
    [packageWith "left=0.65in,right=0.65in,top=0.5in,bottom=0.6in" "geometry",
      package "xcolor",
      package "enumitem",
      package "titlesec",
      package "hyperref",
      package "tikz",
      package "multicol",
      package "ragged2e",
      package "fontawesome5",
      [],
      colourName "headercolor" "69,90,100",
      colourName "sectioncolor" "100,100,100",
      colourName "bodytext" "80,80,80",
      [],
      command "pagestyle" "empty",
      declare "setlength" [braced (control "parindent"), braced "0pt"],
      declare "setlength" [braced (control "parskip"), braced "3pt"],
      [],
      command "hypersetup" "colorlinks=true, linkcolor=headercolor, urlcolor=headercolor",
      [],
      command "titleformat" (control "section"),
      "  " ++ braced (control "small" ++ control "bfseries" ++ command "color" "sectioncolor"),
      "  " ++ braced [] ++ braced "0pt",
      "  " ++ braced (control "MakeUppercase"),
      "  " ++ bracketed (command "vspace" "-1pt" ++ declare "textcolor" [braced "sectioncolor",
        braced (declare "rule" [braced (control "linewidth"), braced "0.6pt"])]),
      declare "titlespacing" [braced (control "section"), braced "0pt", braced "7pt", braced "3pt"],
      [],
      declare "setlist" [bracketed "itemize",
        braced "nosep, leftmargin=1.1em, itemsep=0.8pt, topsep=1pt, parsep=0pt"]]

def left : List SectionKey :=
  [.summary, .education, .skills, .languages, .achievements, .experience, .portfolio]

def right : List SectionKey :=
  [.football, .personalAttributes, .references]

def smallPrint (text : Tex) : Tex :=
  braced (control "small" ++ "\n" ++ text ++ "\n")

def entryHeader (h : EntryHeader) : Tex :=
  let second := joinPresent (" " ++ control "hfill" ++ " ")
    [styled "textit" h.organization, grouped (control "footnotesize") h.dates]
  joinPresent "\\\\\n" [styled "textbf" h.title, second]

def activities (text : Tex) : Tex :=
  control "par" ++ braced (control "footnotesize" ++ " Activities: " ++ text)

def style : SectionStyle where
  heading := plainHeading
  wrap _ body := smallPrint body
  experience :=
    { header := entryHeader
      listOpening := opening "itemize"
      separator := "\n\n" }
  education :=
    { header := entryHeader
      activities := activities
      separator := "\n\n" }

def banner (m : Masthead) : Tex :=
  let lines := joinPresent (breakLine "6pt")
    [grouped (control "Huge" ++ control "bfseries") (styled "MakeUppercase" m.name),
      grouped (control "large") (m.headline id)]
  let picture : Tex :=
    control "fill" ++ bracketed "headercolor"
      ++ " (current page.north west) rectangle ([yshift=-3.2cm]current page.north east);\n"
      ++ control "node" ++ bracketed "anchor=north west, text=white, inner sep=0pt"
      ++ " at ([xshift=0.65in,yshift=-0.9cm]current page.north west) "
      ++ braced (environment "minipage" (braced ("0.8" ++ control "paperwidth")) lines) ++ ";"
  environment "tikzpicture" (bracketed "remember picture,overlay") picture ++ "\n"
    ++ command "vspace*" "2.4cm"

def contact (m : Masthead) : Tex :=
  present (fun lines => command "section*" "Contact" ++ "\n" ++ smallPrint lines)
    (joinPresent "\\\\\n" m.contactParts)

def body (d : Document) : Tex :=
  let m := Masthead.ofIdentity d.identity
  let leftColumn := joinPresent "\n\n" [contact m, style.sections d left]
  let rightColumn :=
    joinPresent "\n\n" [style.sections d right, style.customSections d.customSections]
  banner m ++ "\n\n" ++ environment "multicols" (braced "2")
    (leftColumn ++ "\n\n" ++ control "columnbreak" ++ "\n\n" ++ rightColumn)

end Vitae.Layout.Detailed
