import Vitae.Layout.Catalogue
import Vitae.Proofs.Reading.Section

/-!
# Forms of entries

The block of an entry is a form, markup of the layout with gaps, that is filled with the texts of the entry. The
form depends only on which fields are there and on the number of details, so that each text that is there stands
in the block once and in order, and nothing stands there for a field that is blank.
-/

namespace Vitae

open Text Tex

/-! ## Forms -/

abbrev Form := List (Option Tex)

inductive Form.Filled : Form → List Tex → Tex → Prop where
  | done : Filled [] [] []
  | markup {f : Form} {ts : List Tex} {s : Tex} (m : Tex) (rest : Filled f ts s) :
      Filled (some m :: f) ts (m ++ s)
  | gap {f : Form} {ts : List Tex} {s : Tex} (t : Tex) (rest : Filled f ts s) :
      Filled (none :: f) (t :: ts) (t ++ s)

namespace Form.Filled

variable {f g : Form} {ts us : List Tex} {s t p : Tex}

theorem append (hs : Filled f ts s) (ht : Filled g us t) : Filled (f ++ g) (ts ++ us) (s ++ t) := by
  induction hs with
  | done => exact ht
  | markup m _ ih =>
    rw [List.append_assoc]
    exact ih.markup m
  | gap u _ ih =>
    rw [List.append_assoc]
    exact ih.gap u

theorem eq_nil (h : Filled f ts s) (empty : s = []) : ∀ t ∈ ts, t = [] := by
  induction h with
  | done => exact List.forall_mem_nil _
  | markup m _ ih => exact ih (List.append_eq_nil_iff.mp empty).2
  | gap u _ ih =>
    obtain ⟨first, rest⟩ := List.append_eq_nil_iff.mp empty
    exact List.forall_mem_cons.mpr ⟨first, ih rest⟩

/-- What holds of the markup and of the texts, and goes over to texts put together, holds of the whole. -/
theorem all {P : Tex → Prop} (nil : P []) (append : ∀ {a b : Tex}, P a → P b → P (a ++ b)) (h : Filled f ts s)
    (markup : ∀ m, some m ∈ f → P m) (texts : ∀ t ∈ ts, P t) : P s := by
  induction h with
  | done => exact nil
  | markup m _ ih =>
    exact append (markup m List.mem_cons_self) (ih (fun n mem => markup n (List.mem_cons_of_mem _ mem)) texts)
  | gap u _ ih =>
    rw [List.forall_mem_cons] at texts
    exact append texts.1 (ih (fun n mem => markup n (List.mem_cons_of_mem _ mem)) texts.2)

end Form.Filled

/-! ## Headers -/

inductive HeaderField where
  | title
  | organization
  | dates
  deriving DecidableEq, Repr

namespace EntryHeader

def field (h : EntryHeader) : HeaderField → Tex
  | .title => h.title
  | .organization => h.organization
  | .dates => h.dates

def shown (h : EntryHeader) : List HeaderField :=
  [.title, .organization, .dates].filter fun f => !(h.field f).isEmpty

end EntryHeader

/-- What stands in front of a field and behind it, and between a field and the next one that is there. -/
structure HeaderMarkup where
  around : HeaderField → Tex × Tex
  between : HeaderField → HeaderField → Tex

def HeaderMarkup.form (m : HeaderMarkup) : List HeaderField → Form
  | [] => []
  | [f] => [some (m.around f).1, none, some (m.around f).2]
  | f :: g :: fs =>
    [some (m.around f).1, none, some (m.around f).2, some (m.between f g)] ++ m.form (g :: fs)

namespace HeaderMarkup

def plain : Tex × Tex :=
  ([], [])

def styled (name : String) : Tex × Tex :=
  (control name ++ ['{'], ['}'])

def grouped (declarations : Tex) : Tex × Tex :=
  ('{' :: (declarations ++ " "), ['}'])

def coloured (colour : String) (inner : Tex × Tex) : Tex × Tex :=
  (command "textcolor" colour ++ '{' :: inner.1, inner.2 ++ ['}'])

def fill : Tex :=
  " " ++ control "hfill" ++ " "

def oneLine (separator : Tex) (title organization dates : Tex × Tex) : HeaderMarkup where
  around
    | .title => title
    | .organization => organization
    | .dates => dates
  between
    | .title, .organization => separator
    | _, _ => fill

def twoLines (title organization dates : Tex × Tex) : HeaderMarkup where
  around
    | .title => title
    | .organization => organization
    | .dates => dates
  between
    | .title, _ => "\\\\\n"
    | _, _ => fill

end HeaderMarkup

namespace Layout

open HeaderMarkup

def experienceMarkup : Layout → HeaderMarkup
  | .classic => oneLine " -- " (styled "textbf") (styled "textit") (styled "textbf")
  | .modern => twoLines (styled "textbf") (coloured "primaryblue" (styled "textbf")) (styled "textit")
  | .detailed => twoLines (styled "textbf") (styled "textit") (grouped (control "footnotesize"))
  | .executiveBlue => oneLine " | " (styled "textbf") (coloured "executivebluelight" plain) (styled "textit")
  | .executiveGray => oneLine ", " (styled "textbf") plain (styled "textit")

def educationMarkup : Layout → HeaderMarkup
  | .classic => oneLine " -- " (styled "textbf") plain (styled "textbf")
  | .executiveBlue => twoLines (styled "textbf") (styled "textit") plain
  | l => l.experienceMarkup

end Layout

/-! ### Headers in their forms -/

def HeaderMarkup.write (m : HeaderMarkup) (h : EntryHeader) : List HeaderField → Tex
  | [] => []
  | [f] => (m.around f).1 ++ (h.field f ++ (m.around f).2)
  | f :: g :: fs =>
    (m.around f).1 ++ (h.field f ++ ((m.around f).2 ++ (m.between f g ++ m.write h (g :: fs))))

theorem HeaderMarkup.filled_write (m : HeaderMarkup) (h : EntryHeader) (fs : List HeaderField) :
    (m.form fs).Filled (fs.map h.field) (m.write h fs) := by
  fun_induction HeaderMarkup.form m fs with
  | case1 => exact .done
  | case2 f =>
    have last := (Form.Filled.done.markup (m.around f).2).gap (h.field f)
    rw [List.append_nil] at last
    exact last.markup _
  | case3 f g fs ih => exact ((ih.markup _).markup _).gap _ |>.markup _

def around (markup : Tex × Tex) (value : Tex) : Tex :=
  present (fun v => markup.1 ++ (v ++ markup.2)) value

theorem around_plain (v : Tex) : around HeaderMarkup.plain v = v := by
  cases v <;> simp [around, HeaderMarkup.plain, present]

theorem around_styled (name : String) (v : Tex) : around (HeaderMarkup.styled name) v = styled name v := by
  have markup (v : Tex) : command name v = control name ++ '{' :: (v ++ ['}']) := rfl
  simp [around, HeaderMarkup.styled, styled, funext markup]

theorem around_grouped (declarations v : Tex) :
    around (HeaderMarkup.grouped declarations) v = grouped declarations v := by
  simp [around, HeaderMarkup.grouped, grouped, braced]

theorem around_coloured (colour : String) (inner : Tex × Tex) (v : Tex) :
    around (HeaderMarkup.coloured colour inner) v = coloured colour (around inner v) := by
  cases v <;> simp [around, HeaderMarkup.coloured, coloured, present, braced]

theorem join_nil (separator : Tex) : join separator [] = [] := rfl

theorem write_oneLine (separator : Tex) (title organization dates : Tex × Tex) (h : EntryHeader) :
    (HeaderMarkup.oneLine separator title organization dates).write h h.shown =
      joinPresent HeaderMarkup.fill
        [joinPresent separator [around title h.title, around organization h.organization], around dates h.dates] := by
  obtain ⟨_ | _, _ | _, _ | _⟩ := h <;>
    simp [HeaderMarkup.oneLine, HeaderMarkup.write, EntryHeader.shown, EntryHeader.field, around, present,
      joinPresent, join_nil, join_cons_cons, join_singleton]

theorem write_twoLines (title organization dates : Tex × Tex) (h : EntryHeader) :
    (HeaderMarkup.twoLines title organization dates).write h h.shown =
      joinPresent "\\\\\n" [around title h.title,
        joinPresent HeaderMarkup.fill [around organization h.organization, around dates h.dates]] := by
  obtain ⟨_ | _, _ | _, _ | _⟩ := h <;>
    simp [HeaderMarkup.twoLines, HeaderMarkup.write, EntryHeader.shown, EntryHeader.field, around, present,
      joinPresent, join_nil, join_cons_cons, join_singleton]

namespace Layout

theorem write_experienceMarkup (l : Layout) (h : EntryHeader) :
    l.experienceMarkup.write h h.shown = l.style.experience.header h := by
  cases l <;> simp only [experienceMarkup, write_oneLine, write_twoLines, around_styled, around_plain,
    around_coloured, around_grouped] <;> rfl

theorem write_educationMarkup (l : Layout) (h : EntryHeader) :
    l.educationMarkup.write h h.shown = l.style.education.header h := by
  cases l <;> simp only [educationMarkup, experienceMarkup, write_oneLine, write_twoLines, around_styled,
    around_plain, around_coloured, around_grouped] <;> rfl

end Layout

/-! ## Blocks -/

def itemForm : Form :=
  [some "\n  \\item ", none]

def listForm (items : Nat) : Form :=
  if items = 0 then [] else
    some ("\n" ++ opening "itemize") ::
      ((List.replicate items itemForm).flatten ++ [some ("\n" ++ closing "itemize")])

namespace Layout

def experienceForm (l : Layout) (fields : List HeaderField) (details : Nat) : Form :=
  l.experienceMarkup.form fields ++ listForm details

def activitiesMarkup : Layout → Tex × Tex
  | .classic | .executiveGray => ("\n" ++ control "par" ++ control "textit" ++ '{' :: "Activities: ", ['}'])
  | .modern => ("\n" ++ control "par" ++ '{' :: (control "small" ++ control "textit" ++ '{' :: "Activities: "),
      ['}', '}'])
  | .detailed => ("\n" ++ control "par" ++ '{' :: (control "footnotesize" ++ " Activities: "), ['}'])
  | .executiveBlue => ("\n" ++ control "par" ++ '{' :: (control "small" ++ " Activities: "), ['}'])

def educationForm (l : Layout) (fields : List HeaderField) (active : Bool) : Form :=
  l.educationMarkup.form fields ++
    if active then [some l.activitiesMarkup.1, none, some l.activitiesMarkup.2] else []

end Layout

def Experience.fields (e : Experience) : List HeaderField :=
  [.title, .organization, .dates].filter fun
    | .title => !isBlankString e.position
    | .organization => !isBlankString e.company
    | .dates => !(isBlankString e.startDate && isBlankString e.endDate)

def Education.fields (e : Education) : List HeaderField :=
  [.title, .organization, .dates].filter fun
    | .title => !isBlankString e.degree
    | .organization => !isBlankString e.institution
    | .dates => !(isBlankString e.startDate && isBlankString e.endDate)

def datesText (start finish : String) : Tex :=
  if isBlankString start then escapeTrimmed finish.toList
  else if isBlankString finish then escapeTrimmed start.toList
  else escapeTrimmed start.toList ++ " -- " ++ escapeTrimmed finish.toList

/-- A detail in full, behind an empty group where LaTeX would take its start for an optional argument or a star. -/
def detailText (detail : String) : Tex :=
  (if ReadsOption (escape detail.toList) then braced [] else []) ++ escape detail.toList

def Experience.texts (e : Experience) : List Tex :=
  [escapeTrimmed e.position.toList, escapeTrimmed e.company.toList,
      datesText e.startDate e.endDate].filter (!·.isEmpty) ++ e.details.map detailText

def Education.texts (e : Education) : List Tex :=
  [escapeTrimmed e.degree.toList, escapeTrimmed e.institution.toList,
    datesText e.startDate e.endDate, escapeTrimmed e.activities.toList].filter (!·.isEmpty)

def Layout.SetsExperience (l : Layout) (e : Experience) (block : Tex) : Prop :=
  (l.experienceForm e.fields e.details.length).Filled e.texts block

def Layout.SetsEducation (l : Layout) (e : Education) (block : Tex) : Prop :=
  (l.educationForm e.fields (!isBlankString e.activities)).Filled e.texts block

theorem isEmpty_escapeTrimmed (s : List Char) : (escapeTrimmed s).isEmpty = allBlank s := by
  rw [Bool.eq_iff_iff, List.isEmpty_iff, escapeTrimmed_eq_nil_iff]

theorem dateRange_eq (start finish : String) : dateRange start.toList finish.toList = datesText start finish := by
  have nil_iff (s : String) : escapeTrimmed s.toList = [] ↔ isBlankString s = true := escapeTrimmed_eq_nil_iff
  unfold dateRange datesText
  split
  · case isTrue first => rw [(nil_iff start).mpr first, joinPresent_cons_nil, joinPresent_singleton]
  · case isFalse first =>
    have shown := (nil_iff start).not.mpr first
    split
    · case isTrue last =>
      rw [(nil_iff finish).mpr last]
      simp [joinPresent, shown, join_singleton]
    · case isFalse last =>
      rw [joinPresent_pair _ shown ((nil_iff finish).not.mpr last), List.append_assoc]

theorem isEmpty_dateRange (start finish : List Char) :
    (dateRange start finish).isEmpty = (allBlank start && allBlank finish) := by
  rw [Bool.eq_iff_iff, List.isEmpty_iff, dateRange_eq_nil_iff, Bool.and_eq_true]

theorem Experience.shown_entryHeader (e : Experience) : e.entryHeader.shown = e.fields := by
  refine List.filter_congr fun f _ => ?_
  cases f with
  | title | organization => exact congrArg (!·) (isEmpty_escapeTrimmed _)
  | dates => exact congrArg (!·) (isEmpty_dateRange _ _)

theorem Education.shown_entryHeader (e : Education) : e.entryHeader.shown = e.fields := by
  refine List.filter_congr fun f _ => ?_
  cases f with
  | title | organization => exact congrArg (!·) (isEmpty_escapeTrimmed _)
  | dates => exact congrArg (!·) (isEmpty_dateRange _ _)

theorem EntryHeader.map_field_shown (h : EntryHeader) :
    h.shown.map h.field = [h.title, h.organization, h.dates].filter (!·.isEmpty) := by
  have fields : [h.title, h.organization, h.dates] = [.title, .organization, .dates].map h.field := rfl
  rw [fields, List.filter_map]
  rfl

def listing (items : List Tex) : Tex :=
  if items = [] then [] else
    "\n" ++ opening "itemize" ++ (items.flatMap ("\n  \\item ".toList ++ ·) ++ ("\n" ++ closing "itemize"))

theorem filled_listing (items : List Tex) : (listForm items.length).Filled items (listing items) := by
  have body : Form.Filled ((List.replicate items.length itemForm).flatten ++ [some ("\n" ++ closing "itemize")])
      items (items.flatMap ("\n  \\item ".toList ++ ·) ++ ("\n" ++ closing "itemize")) := by
    induction items with
    | nil => exact .markup _ .done
    | cons t items ih => simpa [List.replicate_succ, itemForm] using (ih.gap t).markup "\n  \\item ".toList
  cases items with
  | nil => exact .done
  | cons t items => exact body.markup _

theorem Experience.render_eq (style : ExperienceStyle) (e : Experience)
    (opens : style.listOpening = opening "itemize") : e.render style =
      style.header e.entryHeader ++ listing (e.details.map detailText) := by
  unfold render listing
  cases e.details with
  | nil => simp
  | cons d ds =>
    have items (t : Tex) : item t = "  \\item " ++ t := rfl
    simp [opens, join_cons, detailItem, detailText, guardLineStart_eq, items, List.flatMap_map]

namespace Layout

theorem listOpening_eq (l : Layout) : l.style.experience.listOpening = opening "itemize" := by
  cases l <;> rfl

theorem sets_experience (l : Layout) (e : Experience) : l.SetsExperience e (e.render l.style.experience) := by
  have header := l.experienceMarkup.filled_write e.entryHeader e.entryHeader.shown
  have list := filled_listing (e.details.map detailText)
  rw [write_experienceMarkup, EntryHeader.map_field_shown, Experience.shown_entryHeader] at header
  rw [List.length_map] at list
  rw [SetsExperience, Experience.texts, ← dateRange_eq, Experience.render_eq _ e l.listOpening_eq]
  exact header.append list

theorem activities_eq (l : Layout) (text : Tex) :
    "\n" ++ l.style.education.activities text = l.activitiesMarkup.1 ++ (text ++ l.activitiesMarkup.2) := by
  cases l <;> simp [activitiesMarkup, style, Classic.style, Classic.activities, Modern.style, Modern.activities,
    Detailed.style, Detailed.activities, ExecutiveBlue.style, ExecutiveBlue.activities, ExecutiveGray.style,
    ExecutiveGray.activities, command, braced]

theorem sets_education (l : Layout) (e : Education) : l.SetsEducation e (e.render l.style.education) := by
  have header := l.educationMarkup.filled_write e.entryHeader e.entryHeader.shown
  have fields : e.texts = e.fields.map e.entryHeader.field ++
      [escapeTrimmed e.activities.toList].filter (!·.isEmpty) := by
    rw [← Education.shown_entryHeader, EntryHeader.map_field_shown, ← List.filter_append, Education.texts,
      ← dateRange_eq]
    rfl
  rw [write_educationMarkup, Education.shown_entryHeader] at header
  rw [SetsEducation, educationForm, Education.render, fields]
  by_cases idle : escapeTrimmed e.activities.toList = []
  · have blank : isBlankString e.activities = true := escapeTrimmed_eq_nil_iff.mp idle
    simpa [idle, blank] using header
  · have visible : isBlankString e.activities = false :=
      Bool.eq_false_iff.mpr (escapeTrimmed_eq_nil_iff.not.mp idle)
    have line := ((Form.Filled.done.markup l.activitiesMarkup.2).gap
      (escapeTrimmed e.activities.toList)).markup l.activitiesMarkup.1
    rw [List.append_nil, ← activities_eq] at line
    simpa [idle, visible] using header.append line

end Layout

end Vitae
