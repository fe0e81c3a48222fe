import Vitae.Proofs.Layout.Parts
import Vitae.Proofs.Tex.Filled

namespace Vitae

open Text Tex Layout

/-! ## Particulars -/

inductive Particular where
  | name
  | title
  | subtitle
  | phone
  | email
  | location
  | portfolio
  | social
  deriving DecidableEq, Repr

namespace Particular

def all : List Particular :=
  [.name, .title, .subtitle, .phone, .email, .location, .portfolio, .social]

def text (i : Identity) : Particular → String
  | .name => i.name
  | .title => i.title
  | .subtitle => i.subtitle
  | .phone => i.phone
  | .email => i.email
  | .location => i.location
  | .portfolio => i.portfolio
  | .social => i.social

def icon? : Particular → Option String
  | .name | .title | .subtitle => none
  | .phone => some "faPhone"
  | .email => some "faEnvelope"
  | .location => some "faMapMarker*"
  | .portfolio => some "faGlobe"
  | .social => some "faLink"

theorem mem_all (p : Particular) : p ∈ all := by
  cases p <;> decide

theorem eq_of_icon {p q : Particular} {w : String} (hp : p.icon? = some w) (hq : q.icon? = some w) :
    p = q := by
  have distinct : ∀ p ∈ all, ∀ q ∈ all, p.icon? ≠ none → p.icon? = q.icon? → p = q := by decide
  exact distinct p p.mem_all q q.mem_all (by simp [hp]) (hp.trans hq.symm)

def target? (i : Identity) : Particular → Option Tex
  | .email => Target.mailto? i.email.toList
  | .portfolio => Target.url? i.portfolio.toList
  | .social => Target.url? i.social.toList
  | _ => none

def isBlank (i : Identity) (p : Particular) : Bool :=
  isBlankString (p.text i)

def label (i : Identity) (p : Particular) : Tex :=
  escapeTrimmed (p.text i).toList

def sign (p : Particular) : Tex :=
  match p.icon? with
  | some w => control w ++ control " "
  | none => []

/-- What stands in a source for a particular that is not blank: its text, behind its icon if it has one,
and as the label of a link if it has a target. -/
def shown (i : Identity) (p : Particular) : Tex :=
  p.sign ++ match p.target? i with
    | some t => control "href" ++ braced t ++ braced (p.label i)
    | none => p.label i

def drawn (i : Identity) (p : Particular) : Tex :=
  match p.icon? with
  | some w => withIcon w (linked (p.target? i) (p.label i))
  | none => linked (p.target? i) (p.label i)

def visible (i : Identity) (ps : List Particular) : List Particular :=
  ps.filter (!isBlank i ·)

end Particular

def InOrder : List Tex → Tex → Prop
  | [], _ => True
  | t :: ts, s => ∃ a b, s = a ++ t ++ b ∧ InOrder ts b

/-- The block shows what is not blank in the identity, and has nothing in it for what is blank. An empty
group is only what an escaped character makes of it. -/
structure Identifies (i : Identity) (block : Tex) : Prop where
  order : InOrder ((Particular.visible i Particular.all).map (Particular.shown i)) block
  targets : (cutTargets block).2 = (Particular.visible i Particular.all).filterMap (Particular.target? i)
  icons : ∀ p : Particular, p.isBlank i = true → ∀ w ∈ p.icon?, ¬control w <:+: block
  commands : ∀ w : String, w ≠ "" → w.toList.all Char.isAlpha = true → w ∉ escapeWords →
    ¬command w [] <:+: block
  emptyGroups : ∀ a b, block = a ++ braced [] ++ b → ∃ w ∈ "" :: escapeWords, control w <:+ a
  declarations : ∀ t, ¬braced (t ++ " ") <:+: block
  separators : (∀ p, Particular.isBlank i p = true) →
    ¬lineBreak <:+: block ∧ ¬control "quad" <:+: block

variable {i : Identity} {s t : Tex} {ts us : List Tex} {is js : List String} {ps qs : List Particular}

/-! ## Texts one after another -/

theorem InOrder.behind (h : InOrder ts s) (front : Tex) : InOrder ts (front ++ s) := by
  cases ts with
  | nil => trivial
  | cons t ts =>
    obtain ⟨a, b, rfl, rest⟩ := h
    exact ⟨front ++ a, b, by simp only [List.append_assoc], rest⟩

theorem InOrder.append (hs : InOrder ts s) (ht : InOrder us t) : InOrder (ts ++ us) (s ++ t) := by
  induction ts generalizing s with
  | nil => exact ht.behind s
  | cons first ts ih =>
    obtain ⟨a, b, rfl, rest⟩ := hs
    exact ⟨a, b ++ t, by simp only [List.append_assoc], ih rest⟩

/-! ## What a text carries -/

def contactIcons : List String :=
  Particular.all.filterMap Particular.icon?

/-- The links of a text, whatever stands behind it, the only icons of contact that it may have, and that
its groups are filled. -/
structure Carries (targets : List Tex) (icons : List String) (s : Tex) : Prop where
  links : ∀ k, (cutTargets (s ++ k)).2 = targets ++ (cutTargets k).2
  others : ∀ w ∈ contactIcons, w ∉ icons → lacks (control w) s = true
  filled : Filled s

def Bare (s : Tex) : Prop :=
  lacks linkStart s = true ∧ (∀ w ∈ contactIcons, lacks (control w) s = true) ∧ Filled s

instance : DecidablePred Bare :=
  fun _ => inferInstanceAs (Decidable (_ ∧ _ ∧ _))

theorem Bare.carries (h : Bare s) : Carries [] [] s where
  links k := by rw [cutTargets_append_of_lacks h.1, List.nil_append]
  others w mem _ := h.2.1 w mem
  filled := h.2.2

theorem Carries.append (hs : Carries ts is s) (ht : Carries us js t) :
    Carries (ts ++ us) (is ++ js) (s ++ t) where
  links k := by rw [List.append_assoc, hs.links, ht.links, List.append_assoc]
  others w mem none := by
    rw [List.mem_append, not_or] at none
    exact lacks_append (hs.others w mem none.1) (ht.others w mem none.2)
  filled := hs.filled.append ht.filled

theorem Carries.group {opens : Tex} (bare : Bare opens) (h : Carries ts is s) (closes : Closes s) :
    Carries ts is (opens ++ s ++ ['}']) where
  links k := by
    have brace : lacks linkStart ['}'] = true := rfl
    rw [List.append_assoc, List.append_assoc, cutTargets_append_of_lacks bare.1, h.links,
      cutTargets_append_of_lacks brace]
  others w mem none := by
    have brace : lacks (control w) ['}'] = true := rfl
    exact lacks_append (lacks_append (bare.2.1 w mem) (h.others w mem none)) brace
  filled := bare.2.2.group h.filled closes

/-! ### Particulars that are shown -/

theorem reserved_linkStart : Reserved linkStart :=
  ⟨rfl, by decide⟩

theorem reserved_icon {w : String} (mem : w ∈ contactIcons) : Reserved (control w) := by
  have forms : ∀ w ∈ contactIcons, ∀ f ∈ escapedForms, lacks (control w) f.2 = true := by decide
  exact ⟨rfl, forms w mem⟩

theorem bare_escape (s : List Char) : Bare (escape s) :=
  ⟨reserved_linkStart.lacks_escape s, fun _ mem => (reserved_icon mem).lacks_escape s, filled_escape s⟩

theorem carries_href {u : Tex} {s : List Char} (hard : Target.Hardened u) (neU : u ≠ [])
    (solid : Solid s) (neS : s ≠ []) : Carries [u] [] (Target.href u (escape s)) := by
  -- the cut goes on at the brace that closes the target, and no link starts behind it
  have label {p : Tex} (reserved : Reserved p) :
      lacks p ("\x7d\x7b".toList ++ escape s ++ ['}']) = true := by
    have braces : lacks p "\x7d\x7b".toList = true :=
      lacks_append (reserved.lacks_char (c := '}') (by decide)) (reserved.lacks_char (by decide))
    exact lacks_append (lacks_append braces (reserved.lacks_escape s)) (reserved.lacks_char (by decide))
  have cut : Target.href u (escape s) = linkStart ++ u ++ ("\x7d\x7b".toList ++ escape s ++ ['}']) := by
    simp [Target.href, linkStart, braced]
  refine ⟨fun k => ?_, fun w mem _ => ?_, filled_href hard neU solid neS⟩
  · have behind := congrArg Prod.snd (cutTargets_append_of_lacks (label reserved_linkStart) k)
    have whole := congrArg Prod.snd (cutTargets_link hard.no_brace ('{' :: (escape s ++ '}' :: k)))
    simp only [cut, List.append_assoc] at behind ⊢
    exact whole.trans (congrArg (u :: ·) behind)
  · have start : ∀ w ∈ contactIcons, lacks (control w) linkStart = true := by decide
    rw [cut]
    exact lacks_append (lacks_append (start w mem) ((reserved_icon mem).lacks_hardened hard))
      (label (reserved_icon mem))

theorem carries_sign (p : Particular) : Carries [] p.icon?.toList p.sign := by
  have link : ∀ p ∈ Particular.all, lacks linkStart p.sign = true := by decide
  have others : ∀ p ∈ Particular.all, ∀ w ∈ contactIcons, w ∉ p.icon?.toList →
      lacks (control w) p.sign = true := by
    decide
  have filled : ∀ p ∈ Particular.all, Filled p.sign := by decide
  have links (k : Tex) := congrArg Prod.snd (cutTargets_append_of_lacks (link p p.mem_all) k)
  exact ⟨links, others p p.mem_all, filled p p.mem_all⟩

theorem target?_hardened {p : Particular} {u : Tex} (h : p.target? i = some u) :
    Target.Hardened u ∧ u ≠ [] := by
  cases p with
  | email => exact ⟨Target.hardened_mailto? h, Target.mailto?_ne_nil h⟩
  | portfolio | social => exact ⟨Target.hardened_url? h, Target.url?_ne_nil h⟩
  | _ => cases h

theorem trim_ne_nil {p : Particular} (visible : p.isBlank i = false) : trim (p.text i).toList ≠ [] := by
  rw [Ne, trim_eq_nil_iff]
  exact fun blank => Bool.noConfusion (visible.symm.trans blank)

theorem drawn_of_blank {p : Particular} (blank : p.isBlank i = true) : p.drawn i = [] := by
  have label : p.label i = [] := escapeTrimmed_eq_nil_iff.mpr blank
  unfold Particular.drawn
  split
  · rw [withIcon_eq_nil_iff, linked_eq_nil_iff, label]
  · rw [linked_eq_nil_iff, label]

theorem drawn_of_visible {p : Particular} (visible : p.isBlank i = false) : p.drawn i = p.shown i := by
  have label : p.label i ≠ [] := escapeTrimmed_ne_nil visible
  have link : linked (p.target? i) (p.label i) ≠ [] := linked_eq_nil_iff.not.mpr label
  have signed (w : String) : withIcon w (linked (p.target? i) (p.label i)) =
      control w ++ control " " ++ linked (p.target? i) (p.label i) := if_neg (by simpa using link)
  have value : linked (p.target? i) (p.label i) =
      match p.target? i with
      | some t => control "href" ++ braced t ++ braced (p.label i)
      | none => p.label i := by
    cases p.target? i with
    | none => rfl
    | some t => exact if_neg (by simpa using label)
  unfold Particular.drawn Particular.shown Particular.sign
  rw [← value]
  cases p.icon? with
  | none => rfl
  | some w => exact signed w

/-- A scheme with no address behind it is no target. -/
example : Particular.email.drawn { email := " mailto: " } = "\\faEnvelope\\ mailto:".toList := by
  decide

theorem carries_shown {p : Particular} (visible : p.isBlank i = false) :
    Carries (p.target? i).toList p.icon?.toList (p.shown i) := by
  have solid := solid_trim (p.text i).toList
  unfold Particular.shown
  cases target : p.target? i with
  | none => simpa [Particular.label, escapeTrimmed] using (carries_sign p).append (bare_escape _).carries
  | some u =>
    obtain ⟨hard, ne⟩ := target?_hardened target
    have link := carries_href hard ne solid (trim_ne_nil visible)
    simpa [Particular.label, escapeTrimmed, Target.href] using (carries_sign p).append link

theorem closes_shown {p : Particular} (visible : p.isBlank i = false) : Closes (p.shown i) := by
  unfold Particular.shown
  split
  · case h_1 u _ =>
    have link : Closes (control "href" ++ braced u ++ braced (p.label i)) := (closes_braced _).behind _
    exact link.behind _
  · exact (closes_escape (solid_trim _) (trim_ne_nil visible)).behind _

/-! ## What a text displays -/

structure Presents (i : Identity) (ps : List Particular) (s : Tex) : Prop where
  order : InOrder ((Particular.visible i ps).map (Particular.shown i)) s
  carries : Carries ((Particular.visible i ps).filterMap (Particular.target? i))
    ((Particular.visible i ps).filterMap Particular.icon?) s

structure Displays (i : Identity) (ps : List Particular) (s : Tex) : Prop extends Presents i ps s where
  closes : s ≠ [] → Closes s

theorem Presents.bare (h : Bare s) : Presents i [] s :=
  ⟨trivial, h.carries⟩

theorem Presents.append (hs : Presents i ps s) (ht : Presents i qs t) : Presents i (ps ++ qs) (s ++ t) := by
  have both : Particular.visible i (ps ++ qs) = Particular.visible i ps ++ Particular.visible i qs :=
    List.filter_append ..
  refine ⟨?_, ?_⟩
  · rw [both, List.map_append]
    exact hs.order.append ht.order
  · rw [both, List.filterMap_append, List.filterMap_append]
    exact hs.carries.append ht.carries

theorem Presents.append_bare (h : Presents i ps s) (bare : Bare t) : Presents i ps (s ++ t) := by
  simpa using h.append (.bare bare)

theorem Presents.bare_append (bare : Bare s) (h : Presents i ps t) : Presents i ps (s ++ t) :=
  Presents.append (.bare bare) h

theorem Presents.group {opens : Tex} (bare : Bare opens) (h : Presents i ps s) (closes : Closes s) :
    Presents i ps (opens ++ s ++ ['}']) := by
  refine ⟨?_, h.carries.group bare closes⟩
  have nothing : InOrder [] ['}'] := trivial
  have order := (h.order.behind opens).append nothing
  rwa [List.append_nil] at order

theorem Presents.environment {n : String} {start : Tex} (opens : Bare (opening n ++ start ++ "\n"))
    (closes : Bare (closing n)) (h : Presents i ps s) : Presents i ps (environment n start s) :=
  ((h.bare_append opens).append_bare (by decide)).append_bare closes

theorem Presents.braced (h : Presents i ps s) (closes : Closes s) : Presents i ps (braced s) := by
  have opens : Bare ['{'] := by decide
  exact h.group opens closes

theorem Presents.present {f : Tex → Tex} (h : Presents i ps s) (hf : Presents i ps (f s)) :
    Presents i ps (present f s) := by
  unfold Tex.present
  split
  · case isTrue empty => exact List.isEmpty_iff.mp empty ▸ h
  · exact hf

namespace Displays

theorem nil : Displays i [] [] :=
  ⟨.bare (by decide : Bare []), fun ne => absurd rfl ne⟩

theorem drawn (p : Particular) : Displays i [p] (p.drawn i) := by
  cases blank : p.isBlank i with
  | true =>
    have none : Particular.visible i [p] = [] := by simp [Particular.visible, blank]
    rw [drawn_of_blank blank]
    refine ⟨⟨?_, ?_⟩, fun ne => absurd rfl ne⟩
    · rw [none]
      trivial
    · rw [none]
      exact nil.carries
  | false =>
    have one : Particular.visible i [p] = [p] := by simp [Particular.visible, blank]
    have single {β : Type} (f : Particular → Option β) : [p].filterMap f = (f p).toList := by
      cases value : f p <;> simp [value]
    rw [drawn_of_visible blank]
    refine ⟨⟨?_, ?_⟩, fun _ => closes_shown blank⟩
    · rw [one]
      exact ⟨[], [], by simp, trivial⟩
    · rw [one, single, single]
      exact carries_shown blank

theorem group {opens : Tex} (bare : Bare opens) (h : Displays i ps s) :
    Displays i ps (present (fun v => opens ++ v ++ ['}']) s) := by
  by_cases empty : s = []
  · subst empty
    exact h
  · have given : present (fun v => opens ++ v ++ ['}']) s = opens ++ s ++ ['}'] :=
      if_neg (by simpa using empty)
    rw [given]
    exact ⟨h.toPresents.group bare (h.closes empty), fun _ => closes_of_last (by decide) (by decide)⟩

theorem styled {w : String} (bare : Bare (control w ++ ['{'])) (h : Displays i ps s) :
    Displays i ps (styled w s) := by
  have markup : command w = fun v => control w ++ ['{'] ++ v ++ ['}'] := by
    funext v
    simp [command, braced]
  rw [Tex.styled, markup]
  exact h.group bare

theorem grouped {declarations : Tex} (bare : Bare ('{' :: (declarations ++ " "))) (h : Displays i ps s) :
    Displays i ps (grouped declarations s) := by
  simpa [Tex.grouped, braced] using h.group bare

theorem append (hs : Displays i ps s) (ht : Displays i qs t) : Displays i (ps ++ qs) (s ++ t) := by
  refine ⟨hs.toPresents.append ht.toPresents, fun ne => ?_⟩
  by_cases empty : t = []
  · subst empty
    rw [List.append_nil] at ne ⊢
    exact hs.closes ne
  · exact (ht.closes empty).behind s

theorem behind {separator : Tex} (between : Bare separator) (ht : Displays i qs t) :
    Displays i qs (behind separator s t) := by
  unfold Tex.behind
  split
  · exact ht
  · case isFalse present =>
    simp only [Bool.or_eq_true, not_or, List.isEmpty_iff] at present
    exact ⟨.append (.bare between) ht.toPresents, fun _ => (ht.closes present.2).behind separator⟩

theorem joinPresent_cons {separator : Tex} {parts : List Tex} (between : Bare separator)
    (hs : Displays i ps s) (ht : Displays i qs (joinPresent separator parts)) :
    Displays i (ps ++ qs) (joinPresent separator (s :: parts)) := by
  rw [Tex.joinPresent_cons]
  exact hs.append (ht.behind between)

theorem line {separator : Tex} (between : Bare separator) (ps : List Particular) :
    Displays i ps (joinPresent separator (ps.map (Particular.drawn i))) := by
  induction ps with
  | nil => exact nil
  | cons p ps ih => exact joinPresent_cons between (drawn p) ih

theorem pair {separator : Tex} (between : Bare separator) (hs : Displays i ps s) (ht : Displays i qs t) :
    Displays i (ps ++ qs) (joinPresent separator [s, t]) := by
  refine joinPresent_cons between hs ?_
  rw [joinPresent_singleton]
  exact ht

end Displays

end Vitae
