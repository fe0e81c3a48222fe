import Vitae.FileTree
import Vitae.Json.Value
import Vitae.Tex.Markup
import Vitae.Text.Blank
import Vitae.Text.Utf8

namespace Vitae.BuildService

open Text

def defaultEndpoint : String :=
  "https://latex.ytotech.com/builds/sync"

def request (source : Tex) : Json :=
  .object
    [("compiler".toList, .string "pdflatex".toList),
      ("resources".toList, .array
        [.object [("main".toList, .bool true), ("content".toList, .string source)]])]

structure Reply where
  status : Nat
  contentType : Option (List Char)
  body : ByteArray
  deriving DecidableEq

inductive Error where
  | unreachable (reason : String)
  | rejected (status : Nat) (body : List Char)
  | noPdf (body : List Char)
  | unwritten (cause : FileError)
  deriving DecidableEq

def Error.message : Error → String
  | .unreachable reason => "request failed: " ++ reason
  | .rejected status body =>
    "compilation failed (HTTP " ++ toString status ++ ")" ++
      (if allBlank body then "" else ": " ++ String.ofList body)
  | .noPdf body => if allBlank body then "compilation returned non-PDF response" else String.ofList body
  | .unwritten cause => "I/O error: " ++ cause.message

namespace Reply

def isSuccess (r : Reply) : Bool :=
  200 ≤ r.status && r.status ≤ 299

def isPdf (r : Reply) : Bool :=
  r.contentType.any fun t => "application/pdf".toList.isPrefixOf ((trimStart t).map Char.toLower)

def text (r : Reply) : List Char :=
  decodeLossy r.body.toList

def pdf (r : Reply) : Except Error ByteArray :=
  if !r.isSuccess then .error (.rejected r.status r.text)
  else if r.isPdf then .ok r.body
  else .error (.noPdf r.text)

end Reply

/-- How a request gets to a service by its address, in a monad. Without a reply there is a reason. -/
abbrev Transport (m : Type → Type) := String → Json → m (Except String Reply)

def Transport.down {m : Type → Type} [Monad m] : Transport m :=
  fun endpoint _ => pure (.error ("error sending request for url (" ++ endpoint ++ ")"))

def build {m : Type → Type} [Monad m] (transport : Transport m) (endpoint : String) (source : Tex) :
    ExceptT Error m ByteArray := do
  match ← transport endpoint (request source) with
  | .error reason => throw (.unreachable reason)
  | .ok reply => reply.pdf

def buildTo {m : Type → Type} [Monad m] (host : Host m) (transport : Transport m) (endpoint : String)
    (source : Tex) (path : Path) : ExceptT Error m ByteArray := do
  let pdf ← build transport endpoint source
  match ← host.writeFile path pdf with
  | .error cause => throw (.unwritten cause)
  | .ok () => return pdf

end Vitae.BuildService
