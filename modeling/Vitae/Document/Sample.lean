import Vitae.Document.Edit

namespace Vitae.Document

def sampleTexts : Document where
  identity :=
    { name := "Jordan Avery"
      title := "Media Executive"
      subtitle := "Communications & Sports Media Professional"
      phone := "+44 20 7946 0000"
      email := "jordan.avery@example.com"
      location := "Manchester, UK"
      portfolio := "behance.net/jordanavery"
      social := "youtube.com/@jordanavery" }
  summary :=
    "Media executive with twelve years in sports communications and a lifetime " ++
    "of amateur football. Esports champion, TV match analyst and press office lead."
  football :=
    "Esports football champion (university league winner, 3× regional Pro Club " ++
    "champion), TV match analyst and supporters' page manager."
  achievements :=
    "• University esports football league winner\n" ++
    "• 3× regional Pro Club champion\n" ++
    "• Featured football analyst on regional sports TV\n" ++
    "• Organised away-day media trips for 200+ supporters & staff"
  skills :=
    "Content Writing, Social Media Management, Sports Event Management, " ++
    "Press Releases, Media Coordination, Brand Communications"
  portfolioContent :=
    "TV Appearances: YouTube portfolio\nDesign Work: Behance\n" ++
    "Writing Samples: match reports and tactical analyses available"
  personalAttributes :=
    "Dedicated, deadline-driven and comfortable with evenings, " ++
    "weekends and travel for match coverage."
  languages := "English (native)\nSpanish (professional)"
  references :=
    "Casey Morgan\nSenior Manager, Northwind Delivery\n" ++
    "Phone: +44 161 496 0000\nEmail: casey.morgan@example.com\n\n" ++
    "Dr. Riley Shah\nAssistant Professor, Westbrook University\n" ++
    "Phone: +44 161 496 0001\nEmail: r.shah@example.edu"
  experience :=
    [{ position := "Executive - Employee Engagement"
       company := "Northwind Delivery"
       startDate := "Jan 2023"
       endDate := "Jul 2023"
       details :=
        ["Drafted, edited, and published press releases, news articles, and announcements",
          "Led media operations for Annual Summit 2022 (500+ attendees)"] },
      { position := "Employer Branding"
        company := "Northwind Delivery"
        startDate := "May 2022"
        endDate := "Dec 2022"
        details :=
          ["Arranged a company football tournament with full media coverage",
            "Managed content across social media platforms and corporate websites"] }]
  education :=
    [{ degree := "MSc Strategic Marketing & Digital Media Management"
       institution := "Westbrook University, UK"
       startDate := "2024"
       endDate := "2026"
       activities := "Student media society" },
      { degree := "BBA"
        institution := "Lakeside University"
        startDate := "2017"
        endDate := "2021"
        activities := "Football club, esports team" }]

def sample : Document :=
  { sampleTexts with
    fieldTypes := .ofList
      [(.achievements, .only .bullet), (.languages, .only .bullet),
        (.portfolio, (FieldTypes.only .bullet).insert .hyperlink)]
    links := .ofList
      [(.portfolio,
        [{ label := "YouTube Portfolio", url := "https://www.youtube.com/@jordanavery" },
          { label := "Behance", url := "https://www.behance.net/jordanavery" }])] }

end Vitae.Document
