import Vitae.Proofs.Layout.Style

namespace Vitae.Layout

open Tex

variable {g : Dialect} {guarded : Prop} {m : Masthead}

/-! ## Columns -/

theorem block_twoColumns {left right : Tex} (mem : "columnbreak" ∈ g.commands) (hl : Markup g left)
    (option : startsOption left = false) (hr : Markup g right) :
    Block g (environment "multicols" (braced "2")
      (left ++ "\n\n" ++ control "columnbreak" ++ "\n\n" ++ right)) := by
  have gap : Markup g "\n\n".toList := .text rfl
  simp only [List.append_assoc]
  refine .columns (by decide) (hl.append (gap.append (.word mem (gap.append hr) rfl))).phrase ?_
  rw [startsOption_append, option]
  split <;> rfl

/-! ## The classic layout -/

namespace Classic

theorem block_header (fits : m.Fits (dialect .classic guarded)) :
    Block (dialect .classic guarded) (header m) := by
  unfold header
  extract_lets lines
  have markup : Markup (dialect .classic guarded) lines := by
    refine .joinPresent (.breakLine (by decide)) ?_
    simp only [List.forall_mem_cons, List.not_mem_nil, false_implies, implies_true, and_true]
    refine ⟨?_, ?_, ?_, ?_⟩
    · exact fits.nameLine (mem_commands rfl) (markup_fixed rfl)
    · exact fits.headline fun _ h => .command (mem_commands rfl) h.phrase
    · exact fits.contactLine Masthead.reachParts_subset (mem_commands rfl)
    · exact fits.contactLine Masthead.onlineParts_subset (mem_commands rfl)
  refine .present fun _ => ?_
  have centred : Block (dialect .classic guarded) (environment "center" [] lines) :=
    .environment (by decide) .nil markup.phrase
  exact centred.around .line (.command (mem_commands rfl) (Markup.text rfl).phrase)
    (environment_ne_nil _ _ _) (command_ne_nil _ _)

theorem block_body (d : Document) : Block (dialect .classic guarded) (body d) := by
  refine .joinPresent (.text rfl) ?_
  simp only [List.forall_mem_cons, List.not_mem_nil, false_implies, implies_true, and_true]
  exact ⟨block_header (Masthead.fits_ofIdentity _), ((fits_style d).sections _).1,
    (fits_style d).customSections _⟩

end Classic

/-! ## The modern layout -/

namespace Modern

theorem block_header (fits : m.Fits (dialect .modern guarded)) :
    Block (dialect .modern guarded) (header m) := by
  unfold header
  refine .present fun _ => .environment (by decide) .nil (Markup.phrase ?_)
  refine .joinPresent (.breakLine (by decide)) ?_
  simp only [List.forall_mem_cons, List.not_mem_nil, false_implies, implies_true, and_true]
  refine ⟨?_, ?_, ?_⟩
  · exact fits.nameLine (mem_commands rfl) (markup_fixed rfl)
  · exact (Block.grouped (markup_fixed rfl)
      (fits.headline fun _ h => .command (mem_commands rfl) h.phrase)).markup
  · exact (Block.grouped (markup_fixed rfl)
      (fits.contactLine (List.Subset.refl _) (mem_commands rfl))).markup

theorem block_body (d : Document) : Block (dialect .modern guarded) (body d) := by
  have fits : style.Fits (dialect .modern guarded) d := fits_style d
  have left := fits.sections left
  have right : Block (dialect .modern guarded)
      (joinPresent "\n\n" [style.sections d right, style.customSections d.customSections]) :=
    .joinPresent (.text rfl) (forall_mem_pair (fits.sections _).1 (fits.customSections _))
  have columns := block_twoColumns (mem_commands rfl) left.1.markup left.2 right.markup
  exact .joinPresent (.text rfl)
    (forall_mem_pair (block_header (Masthead.fits_ofIdentity _)) columns)

end Modern

/-! ## The detailed layout -/

namespace Detailed

theorem block_banner (fits : m.Fits (dialect .detailed guarded)) :
    Block (dialect .detailed guarded) (banner m) := by
  unfold banner
  extract_lets lines picture
  have markup : Markup (dialect .detailed guarded) lines := by
    refine .joinPresent (.breakLine (by decide)) (forall_mem_pair ?_ ?_)
    · exact fits.nameLine (mem_commands rfl) (markup_fixed rfl)
    · exact (Block.grouped (markup_fixed rfl) (fits.headline fun _ h => h)).markup
  have width : Phrase (dialect .detailed guarded) ("0.8" ++ control "paperwidth") :=
    (Markup.text rfl).append_phrase (.word (mem_commands rfl))
  have box : Markup (dialect .detailed guarded)
      (environment "minipage" (braced ("0.8" ++ control "paperwidth")) lines) :=
    .environment (by decide) (.braced width) markup.phrase
  have fill : Markup (dialect .detailed guarded) (control "fill" ++ bracketed "headercolor") :=
    .option (mem_commands rfl) (Markup.text rfl).phrase
  have node : Markup (dialect .detailed guarded)
      (control "node" ++ bracketed "anchor=north west, text=white, inner sep=0pt") :=
    .option (mem_commands rfl) (Markup.text rfl).phrase
  have corners : Markup (dialect .detailed guarded)
      " (current page.north west) rectangle ([yshift=-3.2cm]current page.north east);\n".toList :=
    .text (by decide)
  have place : Markup (dialect .detailed guarded)
      " at ([xshift=0.65in,yshift=-0.9cm]current page.north west) ".toList :=
    .text (by decide)
  have drawn : Markup (dialect .detailed guarded) picture := by
    have parts := (((fill.append corners).append (node.append place)).append (.braced box.phrase)).append
      (.text rfl : Markup (dialect .detailed guarded) ";".toList)
    simpa only [picture, List.append_assoc] using parts
  have canvas : Block (dialect .detailed guarded)
      (environment "tikzpicture" (bracketed "remember picture,overlay") picture) :=
    .environment (by decide) (.bracketed (Markup.text rfl).phrase) drawn.phrase
  exact canvas.around .line
    (.starred (w := "vspace") (mem_commands rfl) (by decide) (Markup.text rfl).phrase)
    (environment_ne_nil _ _ _) (command_ne_nil _ _)

theorem block_contact (fits : m.Fits (dialect .detailed guarded)) :
    Block (dialect .detailed guarded) (contact m) ∧ startsOption (contact m) = false := by
  have lines : Markup (dialect .detailed guarded) (joinPresent "\\\\\n" m.contactParts) :=
    .joinPresentLines (fun p mem => (fits.contactParts p mem).1)
      fun _ p mem => (fits.contactParts p mem).2
  have heading := block_starredHeading (Markup.text rfl : Markup (dialect .detailed guarded) "Contact".toList)
  exact ⟨.present fun _ => heading.1.around .line (block_smallPrint lines) (command_ne_nil _ _)
    (braced_ne_nil _), startsOption_present fun _ => rfl⟩

theorem block_body (d : Document) : Block (dialect .detailed guarded) (body d) := by
  have fits : style.Fits (dialect .detailed guarded) d := fits_style d
  have masthead : (Masthead.ofIdentity d.identity).Fits (dialect .detailed guarded) :=
    Masthead.fits_ofIdentity _
  have contact := block_contact masthead
  have sections := fits.sections left
  have left : Block (dialect .detailed guarded)
      (joinPresent "\n\n" [Detailed.contact (.ofIdentity d.identity), style.sections d left]) :=
    .joinPresent (.text rfl) (forall_mem_pair contact.1 sections.1)
  have option : startsOption
      (joinPresent "\n\n" [Detailed.contact (.ofIdentity d.identity), style.sections d Detailed.left]) = false :=
    startsOption_joinPresent (forall_mem_pair contact.1 sections.1) (forall_mem_pair contact.2 sections.2)
  have right : Block (dialect .detailed guarded)
      (joinPresent "\n\n" [style.sections d right, style.customSections d.customSections]) :=
    .joinPresent (.text rfl) (forall_mem_pair (fits.sections _).1 (fits.customSections _))
  have columns := block_twoColumns (mem_commands rfl) left.markup option right.markup
  have banner := block_banner masthead
  exact banner.around (.text rfl) columns (by simp [Detailed.banner]) (environment_ne_nil _ _ _)

end Detailed

/-! ## The blue executive layout -/

namespace ExecutiveBlue

theorem block_portrait : Block (dialect .executiveBlue guarded) portrait := by
  have circle : Markup (dialect .executiveBlue guarded)
      (control "draw" ++ bracketed "executiveblue, line width=1.5pt, fill=lightgray") :=
    .option (mem_commands rfl) (Markup.text rfl).phrase
  have node : Markup (dialect .executiveBlue guarded) (control "node" ++ bracketed "text=executiveblue") :=
    .option (mem_commands rfl) (Markup.text rfl).phrase
  have icon : Phrase (dialect .executiveBlue guarded) (control "Huge" ++ control "faUser") :=
    .append (.word (mem_commands rfl)) (.word (mem_commands rfl)) ⟨rfl, rfl⟩
  refine .environment (by decide) (markup_fixed rfl) (Markup.phrase ?_)
  refine .append (markup_fixed rfl) (.environment (by decide) .nil (Markup.phrase ?_))
  have size : Markup (dialect .executiveBlue guarded) " (0,0) circle (1.4cm);\n".toList := .text (by decide)
  have place : Markup (dialect .executiveBlue guarded) " at (0,0) ".toList := .text (by decide)
  have parts := (((circle.append size).append (node.append place)).append (.braced icon)).append
    (.text rfl : Markup (dialect .executiveBlue guarded) ";".toList)
  simpa only [List.append_assoc] using parts

theorem block_header (fits : m.Fits (dialect .executiveBlue guarded)) :
    Block (dialect .executiveBlue guarded) (header m) := by
  unfold header
  extract_lets lines
  have markup : Markup (dialect .executiveBlue guarded) lines :=
    fits.fourLines (.breakLine (by decide)) (mem_commands rfl) (mem_commands rfl)
      (markup_fixed rfl) (markup_fixed rfl) (markup_fixed rfl)
  have left : Block (dialect .executiveBlue guarded)
      (environment "minipage" (bracketed "c" ++ braced ("0.72" ++ control "textwidth")) lines) :=
    .environment (by decide) (markup_fixed rfl) markup.phrase
  have row := left.beside block_portrait (environment_ne_nil _ _ _) (environment_ne_nil _ _ _)
  have gap : Markup (dialect .executiveBlue guarded) ("\n\n" ++ command "vspace" "6pt" ++ "\n") :=
    .append (.append (.text rfl) (.command (mem_commands rfl) (Markup.text rfl).phrase)) .line
  have rule : Block (dialect .executiveBlue guarded) (braced (command "color" "executiveblue"
      ++ declare "rule" [braced (control "linewidth"), braced "1.4pt"])) :=
    .braced (markup_fixed (by decide)).phrase
  simpa only [List.append_assoc] using
    row.around gap rule (by simp) (braced_ne_nil _)

theorem block_body {d : Document} (guard : guarded → Guarded .executiveBlue d) :
    Block (dialect .executiveBlue guarded) (body d) := by
  refine .joinPresent (.text rfl) ?_
  simp only [List.forall_mem_cons, List.not_mem_nil, false_implies, implies_true, and_true]
  exact ⟨block_header (Masthead.fits_ofIdentity _), ((fits_style guard).sections _).1,
    (fits_style guard).customSections _⟩

end ExecutiveBlue

/-! ## The gray executive layout -/

namespace ExecutiveGray

theorem block_portrait : Block (dialect .executiveGray guarded) portrait := by
  have frame : Markup (dialect .executiveGray guarded)
      (bracketed "c" ++ bracketed "2.6cm" ++ bracketed "c" ++ braced "2.2cm" ++ control "centering"
        ++ command "color" "headergray") :=
    markup_fixed (by decide)
  have icon : Phrase (dialect .executiveGray guarded) (control "Huge" ++ control "faUser") :=
    .append (.word (mem_commands rfl)) (.word (mem_commands rfl)) ⟨rfl, rfl⟩
  have box := Markup.enclosed (n := "minipage") (by decide) (frame.append_phrase icon)
  refine .command (mem_commands rfl) (Markup.phrase ?_)
  simpa only [List.append_assoc] using box

theorem block_header (fits : m.Fits (dialect .executiveGray guarded)) :
    Block (dialect .executiveGray guarded) (header m) := by
  unfold header
  extract_lets small lines
  have markup : Markup (dialect .executiveGray guarded) lines :=
    fits.fourLines (.breakLine (by decide)) (mem_commands rfl) (mem_commands rfl)
      (markup_fixed rfl) (markup_fixed rfl) (markup_fixed rfl)
  have left : Block (dialect .executiveGray guarded)
      (environment "minipage" (bracketed "c" ++ braced ("0.75" ++ control "textwidth")) lines) :=
    .environment (by decide) (markup_fixed rfl) markup.phrase
  exact left.beside block_portrait (environment_ne_nil _ _ _) (command_ne_nil _ _)

theorem block_sharedRow (d : Document) : Block (dialect .executiveGray guarded) (sharedRow d) := by
  have cell : ∀ key, Block (dialect .executiveGray guarded) ((style.section? d key).getD []) ∧
      startsOption ((style.section? d key).getD []) = false := by
    intro key
    cases shown : style.section? d key with
    | none => exact ⟨.nil, rfl⟩
    | some s =>
        obtain ⟨block, firm⟩ := (fits_style d).section? shown
        exact ⟨block, firm.startsOption⟩
  have blocks := forall_mem_pair (cell .education).1 (cell .achievements).1
  have cells : Block (dialect .executiveGray guarded)
      (joinPresent ("\n\n" ++ control "columnbreak" ++ "\n\n")
        [(style.section? d .education).getD [], (style.section? d .achievements).getD []]) :=
    .joinPresent (markup_fixed rfl) blocks
  refine .present fun _ => .columns (by decide) cells.markup.phrase ?_
  exact startsOption_joinPresent blocks (forall_mem_pair (cell .education).2 (cell .achievements).2)

theorem block_body (d : Document) : Block (dialect .executiveGray guarded) (body d) := by
  have fits : style.Fits (dialect .executiveGray guarded) d := fits_style d
  refine .joinPresent (.text rfl) ?_
  simp only [List.forall_mem_cons, List.not_mem_nil, false_implies, implies_true, and_true]
  exact ⟨block_header (Masthead.fits_ofIdentity _), (fits.sections _).1, block_sharedRow d,
    (fits.sections _).1, fits.customSections _⟩

end ExecutiveGray

theorem block_body {l : Layout} {d : Document} (guard : guarded → l.Guarded d) :
    Block (l.dialect guarded) (l.body d) := by
  cases l with
  | classic => exact Classic.block_body d
  | modern => exact Modern.block_body d
  | detailed => exact Detailed.block_body d
  | executiveBlue => exact ExecutiveBlue.block_body guard
  | executiveGray => exact ExecutiveGray.block_body d

end Vitae.Layout
