import Vitae.Document.Basic
import Vitae.Tex.Escape
import Vitae.Tex.Target

namespace Vitae.Layout

open Tex

structure Masthead where
  name : Tex
  title : Tex
  subtitle : Tex
  phone : Tex
  email : Tex
  location : Tex
  portfolio : Tex
  social : Tex

def linked (target : Option Tex) (text : Tex) : Tex :=
  match target with
  | some t => present (Target.href t) text
  | none => text

def withIcon (icon : String) (value : Tex) : Tex :=
  present (fun v => control icon ++ control " " ++ v) value

namespace Masthead

def ofIdentity (i : Identity) : Masthead where
  name := escapeTrimmed i.name.toList
  title := escapeTrimmed i.title.toList
  subtitle := escapeTrimmed i.subtitle.toList
  phone := escapeTrimmed i.phone.toList
  email := linked (Target.mailto? i.email.toList) (escapeTrimmed i.email.toList)
  location := escapeTrimmed i.location.toList
  portfolio := linked (Target.url? i.portfolio.toList) (escapeTrimmed i.portfolio.toList)
  social := linked (Target.url? i.social.toList) (escapeTrimmed i.social.toList)

def headline (m : Masthead) (titleMarkup : Tex → Tex) : Tex :=
  joinPresent " | " [present titleMarkup m.title, m.subtitle]

def reachParts (m : Masthead) : List Tex :=
  [withIcon "faPhone" m.phone, withIcon "faEnvelope" m.email, withIcon "faMapMarker*" m.location]

def onlineParts (m : Masthead) : List Tex :=
  [withIcon "faGlobe" m.portfolio, withIcon "faLink" m.social]

def contactParts (m : Masthead) : List Tex :=
  m.reachParts ++ m.onlineParts

end Masthead

def sectionIcon : Option SectionKey → Tex
  | some .summary => control "faUser"
  | some .football => control "faFutbol"
  | some .experience => control "faBriefcase"
  | some .education => control "faGraduationCap"
  | some .achievements => control "faStar"
  | some .skills => control "faTools"
  | some .portfolio => control "faAddressBook"
  | some .personalAttributes => control "faUserCircle"
  | some .languages => control "faLanguage"
  | some .references => control "faAddressCard"
  | none => control "faBookmark"

def plainHeading (_ : Option SectionKey) (title : Tex) : Tex :=
  command "section*" title

def iconHeading (key : Option SectionKey) (title : Tex) : Tex :=
  command "section*" (sectionIcon key ++ control " " ++ title)

end Vitae.Layout
