import Vitae.Layout.Masthead
import Vitae.Layout.Preamble
import Vitae.Section

namespace Vitae.Layout.ExecutiveBlue

open Tex

def preamble : List Tex :=
  articleLines ++
    [packageWith "left=18mm,right=18mm,top=18mm,bottom=18mm" "geometry",
      package "xcolor",
      package "fontawesome5",
      package "hyperref",
      package "titlesec",
      package "enumitem",
      package "tikz",
      package "ragged2e",
      package "multicol",
      [],
      colourName "executiveblue" "0,51,160",
      colourName "executivebluelight" "0,102,204",
      colourName "darkgray" "50,50,50",
      colourName "lightgray" "245,245,245",
      [],
      command "hypersetup"
        "colorlinks=true, urlcolor=executivebluelight, linkcolor=executivebluelight",
      [],
      command "pagestyle" "empty",
      declare "setlength" [braced (control "parindent"), braced "0pt"],
      declare "setlength" [braced (control "parskip"), braced "0pt"],
      [],
      command "titleformat" (control "section"),
      "  " ++ braced (control "large" ++ control "bfseries" ++ command "color" "executiveblue"),
      "  " ++ braced [] ++ braced "0em",
      "  " ++ braced (control "MakeUppercase"),
      "  " ++ bracketed (command "vspace" "2pt" ++ command "color" "executiveblue"
        ++ declare "rule" [braced (control "linewidth"), braced "1.4pt"]),
      declare "titlespacing" [braced (control "section"), braced "0pt", braced "10pt", braced "4pt"],
      [],
      declare "setlist" [bracketed "itemize",
        braced "nosep, leftmargin=1.4em, itemsep=0.8pt, topsep=1pt, parsep=0pt"]]

def order : List SectionKey :=
  [.summary, .skills, .experience, .football, .education, .achievements, .portfolio,
    .personalAttributes, .languages, .references]

def wrap (key : Option SectionKey) (body : Tex) : Tex :=
  match key with
  | some .skills => environment "multicols" (braced "3") (guardLineStart body)
  | _ => body

def experienceHeader (h : EntryHeader) : Tex :=
  let lead := joinPresent " | "
    [styled "textbf" h.title, coloured "executivebluelight" h.organization]
  joinPresent (" " ++ control "hfill" ++ " ") [lead, styled "textit" h.dates]

def educationHeader (h : EntryHeader) : Tex :=
  let second := joinPresent (" " ++ control "hfill" ++ " ")
    [styled "textit" h.organization, h.dates]
  joinPresent "\\\\\n" [styled "textbf" h.title, second]

def activities (text : Tex) : Tex :=
  control "par" ++ braced (control "small" ++ " Activities: " ++ text)

def style : SectionStyle where
  heading := plainHeading
  wrap := wrap
  experience :=
    { header := experienceHeader
      listOpening := opening "itemize"
      separator := "\n\n" ++ command "vspace" "5pt" ++ "\n\n" }
  education :=
    { header := educationHeader
      activities := activities
      separator := "\n\n" ++ command "vspace" "4pt" ++ "\n\n" }

def portrait : Tex :=
  environment "minipage" (bracketed "c" ++ braced ("0.2" ++ control "textwidth"))
    (control "centering" ++ "\n"
      ++ environment "tikzpicture" []
        (control "draw" ++ bracketed "executiveblue, line width=1.5pt, fill=lightgray"
          ++ " (0,0) circle (1.4cm);\n"
          ++ control "node" ++ bracketed "text=executiveblue" ++ " at (0,0) "
          ++ braced (control "Huge" ++ control "faUser") ++ ";"))

def header (m : Masthead) : Tex :=
  let lines := joinPresent (breakLine "4pt")
    [grouped (control "Huge" ++ control "bfseries" ++ command "color" "executiveblue")
        (styled "MakeUppercase" m.name),
      grouped (control "large" ++ command "color" "darkgray") (m.headline id),
      grouped (control "small") (joinPresent (" " ++ control "quad" ++ " ") m.reachParts),
      grouped (control "small") (joinPresent (" " ++ control "quad" ++ " ") m.onlineParts)]
  environment "minipage" (bracketed "c" ++ braced ("0.72" ++ control "textwidth")) lines ++ "\n"
    ++ control "hfill" ++ "\n" ++ portrait ++ "\n\n"
    ++ command "vspace" "6pt" ++ "\n"
    ++ braced (command "color" "executiveblue"
      ++ declare "rule" [braced (control "linewidth"), braced "1.4pt"])

def body (d : Document) : Tex :=
  joinPresent "\n\n"
    [header (.ofIdentity d.identity), style.sections d order, style.customSections d.customSections]

end Vitae.Layout.ExecutiveBlue
