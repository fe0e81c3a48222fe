import Vitae.Text.Blank
import Vitae.Text.Line
import Vitae.Text.Search
import Vitae.Text.Utf8
import Vitae.Text.Quoted
import Vitae.Number.Shortest
import Vitae.Tex.Markup
import Vitae.Tex.Escape
import Vitae.Tex.Target
import Vitae.FieldTypes
import Vitae.SectionKey
import Vitae.Document.Basic
import Vitae.Document.Edit
import Vitae.Document.Sample
import Vitae.Body.Format
import Vitae.Entry
import Vitae.Section
import Vitae.Layout.Catalogue
import Vitae.Path
import Vitae.FileTree
import Vitae.Profile.Format
import Vitae.Profile.Problem
import Vitae.Profile.Schema
import Vitae.Json.Value
import Vitae.Json.Cursor
import Vitae.Json.Read
import Vitae.Yaml.Read
import Vitae.Profile.Parse
import Vitae.Output
import Vitae.Job
import Vitae.Main
import Vitae.Proofs.Layout.LineStart
import Vitae.Proofs.Section.Visibility
import Vitae.Proofs.Section.Headings
import Vitae.Proofs.Section.Body
import Vitae.Proofs.Layout.Parts
import Vitae.Proofs.CommandLine.Outputs
import Vitae.Proofs.Profile.RoundTrip
import Vitae.Proofs.Files.Rebuild
import Vitae.Proofs.Files.Steps
import Vitae.Proofs.Files.Disk
import Vitae.Proofs.CommandLine.Failures
import Vitae.Proofs.CommandLine.Arguments
import Vitae.Proofs.Files.Named
import Vitae.Proofs.Files.Output
import Vitae.Proofs.CommandLine.Confinement
import Vitae.Proofs.Files.Agreement
import Vitae.Proofs.Section.Trimming
import Vitae.Proofs.Layout.LineBreak
import Vitae.Proofs.Tex.Decoding
import Vitae.Proofs.Document.Slot
import Vitae.Proofs.Document.Independence
import Vitae.Proofs.Document.Settings
import Vitae.Proofs.Document.Details
import Vitae.Proofs.Document.Moving
import Vitae.Proofs.Document.Entries
import Vitae.Proofs.Document.TypeSets
import Vitae.Proofs.Body.Records
import Vitae.Proofs.Body.Blocks
import Vitae.Proofs.Body.Items
import Vitae.Proofs.Target.Scheme
import Vitae.Proofs.Layout.Particulars
import Vitae.Proofs.Layout.Identity
import Vitae.Proofs.Target.Meaning
import Vitae.Proofs.Target.Cleaning
import Vitae.Proofs.Section.Entries
import Vitae.Proofs.Section.Presence
import Vitae.Proofs.Layout.Paragraphs
import Vitae.Proofs.Profile.UnknownNames
