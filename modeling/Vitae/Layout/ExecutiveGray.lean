import Vitae.Layout.Masthead
import Vitae.Layout.Preamble
import Vitae.Section

namespace Vitae.Layout.ExecutiveGray

open Tex

def preamble : List Tex :=
  articleLines ++
    [packageWith "margin=0.5in, top=0.4in, bottom=0.4in" "geometry",
      package "enumitem",
      package "hyperref",
      package "titlesec",
      package "xcolor",
      package "fontawesome5",
      package "ragged2e",
      package "multicol",
      package "parskip",
      [],
      colourName "headergray" "128,128,128",
      colourName "lightgray" "200,200,200",
      colourName "textgray" "80,80,80",
      colourName "darkgray" "60,60,60",
      [],
      command "hypersetup" "colorlinks=true, linkcolor=darkgray, urlcolor=darkgray",
      command "pagestyle" "empty",
      [],
      command "titleformat" (control "section"),
      "  " ++ braced (control "small" ++ control "bfseries" ++ command "color" "darkgray"),
      "  " ++ braced [] ++ braced "0em",
      "  " ++ braced (control "MakeUppercase"),
      "  " ++ bracketed (command "vspace" "-0.5em" ++ declare "textcolor" [braced "lightgray",
        braced (declare "rule" [braced (control "linewidth"), braced "0.4pt"])]),
      declare "titlespacing" [braced (control "section"), braced "0pt", braced "6pt", braced "3pt"],
      [],
      declare "setlist" [bracketed "itemize",
        braced ("nosep, leftmargin=1em, itemsep=0pt, topsep=1pt, parsep=0pt, label="
          ++ control "textbullet")],
      [],
      declare "setlength" [braced (control "parindent"), braced "0pt"],
      declare "setlength" [braced (control "parskip"), braced "0pt"]]

def lead : List SectionKey :=
  [.summary, .football, .skills, .experience]

def tail : List SectionKey :=
  [.portfolio, .personalAttributes, .languages, .references]

def wrap (key : Option SectionKey) (body : Tex) : Tex :=
  let print := braced (control "footnotesize" ++ command "color" "textgray" ++ "\n" ++ body ++ "\n")
  match key with
  | some .football => environment "multicols" (braced "2") print
  | _ => print

def entryHeader (h : EntryHeader) : Tex :=
  let lead := joinPresent ", " [styled "textbf" h.title, h.organization]
  joinPresent (" " ++ control "hfill" ++ " ") [lead, styled "textit" h.dates]

def activities (text : Tex) : Tex :=
  control "par" ++ command "textit" ("Activities: " ++ text)

def entryGap : Tex :=
  "\n\n" ++ command "vspace" "3pt" ++ "\n\n"

def style : SectionStyle where
  heading := plainHeading
  wrap := wrap
  experience :=
    { header := entryHeader
      listOpening := opening "itemize"
      separator := entryGap }
  education :=
    { header := entryHeader
      activities := activities
      separator := entryGap }

def portrait : Tex :=
  command "fbox"
    (opening "minipage" ++ bracketed "c" ++ bracketed "2.6cm" ++ bracketed "c" ++ braced "2.2cm"
      ++ control "centering" ++ command "color" "headergray" ++ control "Huge" ++ control "faUser"
      ++ closing "minipage")

def header (m : Masthead) : Tex :=
  let small := control "footnotesize" ++ command "color" "textgray"
  let lines := joinPresent (breakLine "3pt")
    [grouped (control "LARGE" ++ control "bfseries" ++ command "color" "darkgray")
        (styled "MakeUppercase" m.name),
      grouped (command "color" "headergray") (m.headline id),
      grouped small (joinPresent (" " ++ control "quad" ++ " ") m.reachParts),
      grouped small (joinPresent (" " ++ control "quad" ++ " ") m.onlineParts)]
  environment "minipage" (bracketed "c" ++ braced ("0.75" ++ control "textwidth")) lines ++ "\n"
    ++ control "hfill" ++ "\n" ++ portrait

def sharedRow (d : Document) : Tex :=
  present (environment "multicols" (braced "2"))
    (joinPresent ("\n\n" ++ control "columnbreak" ++ "\n\n")
      [(style.section? d .education).getD [], (style.section? d .achievements).getD []])

def body (d : Document) : Tex :=
  joinPresent "\n\n"
    [header (.ofIdentity d.identity), style.sections d lead, sharedRow d, style.sections d tail,
      style.customSections d.customSections]

end Vitae.Layout.ExecutiveGray
