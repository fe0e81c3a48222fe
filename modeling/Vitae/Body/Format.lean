import Vitae.Body.Bullets
import Vitae.Body.Links
import Vitae.Body.References

namespace Vitae.Body

open Text Tex

def textBody (content : List Char) (types : FieldTypes) : Tex :=
  if types.contains .bullet then bulletList content
  else if types.contains .references then referenceBlocks content
  else escapeTrimmed content

def linkBody (types : FieldTypes) (links : List Link) : Tex :=
  if types.contains .hyperlink then linkList links else []

def format (content : List Char) (types : FieldTypes) (links : List Link) : Tex :=
  joinPresent "\n\n" [textBody content types, linkBody types links]

end Vitae.Body
