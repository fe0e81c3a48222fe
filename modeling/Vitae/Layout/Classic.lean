import Vitae.Layout.Masthead
import Vitae.Layout.Preamble
import Vitae.Section

namespace Vitae.Layout.Classic

open Tex

def preamble : List Tex :=
  articleLines ++
    [packageWith "margin=0.5in" "geometry",
      package "enumitem",
      package "hyperref",
      package "titlesec",
      package "xcolor",
      package "fontawesome5",
      [],
      colourName "accentblue" "0,102,204",
      colourName "darkblue" "0,51,102",
      [],
      command "hypersetup" "colorlinks=true, linkcolor=darkblue, urlcolor=accentblue",
      command "pagestyle" "empty",
      [],
      declare "titleformat"
        [braced (control "section"),
          braced (control "normalsize" ++ control "bfseries" ++ command "color" "accentblue"),
          braced [], braced "0em", braced [], bracketed (control "titlerule")],
      declare "titlespacing" [braced (control "section"), braced "0pt", braced "4pt", braced "2pt"],
      declare "setlength" [braced (control "parindent"), braced "0pt"],
      command "setlist" "nosep, leftmargin=1.2em, itemsep=1pt, topsep=1pt"]

def order : List SectionKey :=
  [.summary, .football, .skills, .experience, .education, .achievements, .portfolio,
    .personalAttributes, .languages, .references]

def experienceHeader (h : EntryHeader) : Tex :=
  let lead := joinPresent " -- " [styled "textbf" h.title, styled "textit" h.organization]
  joinPresent (" " ++ control "hfill" ++ " ") [lead, styled "textbf" h.dates]

def educationHeader (h : EntryHeader) : Tex :=
  let lead := joinPresent " -- " [styled "textbf" h.title, h.organization]
  joinPresent (" " ++ control "hfill" ++ " ") [lead, styled "textbf" h.dates]

def activities (text : Tex) : Tex :=
  control "par" ++ command "textit" ("Activities: " ++ text)

def style : SectionStyle where
  heading := iconHeading
  wrap _ body := body
  experience :=
    { header := experienceHeader
      listOpening := opening "itemize"
      separator := "\n\n" }
  education :=
    { header := educationHeader
      activities := activities
      separator := "\n\n" ++ command "vspace" "3pt" ++ "\n\n" }

def header (m : Masthead) : Tex :=
  let block := joinPresent (breakLine "2pt")
    [grouped (control "large") (styled "textbf" m.name),
      m.headline (command "textbf"),
      joinPresent (" " ++ control "quad" ++ " ") m.reachParts,
      joinPresent (" " ++ control "quad" ++ " ") m.onlineParts]
  present (fun b => environment "center" [] b ++ "\n" ++ command "vspace" "-2pt") block

def body (d : Document) : Tex :=
  joinPresent "\n\n"
    [header (.ofIdentity d.identity), style.sections d order, style.customSections d.customSections]

end Vitae.Layout.Classic
