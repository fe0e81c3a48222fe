import Vitae.Proofs.Reading.Text
import Vitae.Proofs.Text.Trimming
import Vitae.Section

namespace Vitae.Tex

open Text Body

variable {g : Dialect}

/-! ## Lists -/

theorem isItem_bulletItem (line : List Char) : IsItem g (bulletItem line) :=
  ⟨_, rfl, .guardLineStart (.escape line), startsOption_guardLineStart _⟩

theorem isItem_detailItem (detail : String) : IsItem g (detailItem detail) :=
  ⟨_, rfl, .guardLineStart (.escape _), startsOption_guardLineStart _⟩

theorem isItem_linkItem? {l : Link} {i : Tex} (h : linkItem? l = some i) : IsItem g i := by
  unfold linkItem? at h
  simp only at h
  split at h
  · cases h
  · obtain ⟨u, target, rfl⟩ := Option.map_eq_some_iff.mp h
    exact ⟨_, rfl, .href (Target.hardened_url? target) (Markup.escape _).phrase, rfl⟩

theorem Block.itemize {items : List Tex} (h : ∀ i ∈ items, IsItem g i) : Block g (itemize items) := by
  refine ⟨.itemize h, ?_⟩
  unfold Tex.itemize
  split
  · exact .nil
  · exact solid_environment _ _ _

theorem Block.bulletList (content : List Char) : Block g (bulletList content) := by
  refine .itemize ?_
  simp only [List.mem_map, forall_exists_index, and_imp, forall_apply_eq_imp_iff₂]
  exact fun line _ => isItem_bulletItem line

theorem Block.linkList (links : List Link) : Block g (linkList links) := by
  refine .itemize ?_
  simp only [List.mem_filterMap, forall_exists_index, and_imp]
  exact fun i l _ h => isItem_linkItem? h

/-! ## References -/

theorem phrase_contactLine {line : List Char} (solid : Solid line) (ne : line ≠ []) :
    Phrase g (contactLine line) ∧ Firm (contactLine line) := by
  unfold contactLine
  split
  · refine ⟨Markup.phrase (.append (.word (g.mem_sharedWords (by decide)) (.symbol (by decide)) rfl)
      (.escape _)), fun _ => rfl⟩
  · split
    · split
      · rename_i u target
        refine ⟨Markup.phrase (.append (.word (g.mem_sharedWords (by decide)) (.symbol (by decide)) rfl)
          (.href (Target.hardened_mailto? target) (Markup.escape _).phrase)), fun _ => rfl⟩
      -- Without a target the sign stands alone, and its word ends where the line does.
      · exact ⟨.word (g.mem_sharedWords (by decide)), fun _ => rfl⟩
    · have visible := allBlank_of_solid (solid_escape solid) (by simpa using ne)
      exact ⟨Markup.phrase (.guardLineStart (.escape _)), firm_guardLineStart visible⟩

theorem phrase_recordBlock {r : Record} (h : ∀ line ∈ r, Solid line ∧ line ≠ []) :
    Phrase g (recordBlock r) := by
  cases r with
  | nil => exact Markup.nil.phrase
  | cons name rest =>
      have bold : Markup g (command "textbf" (escape name)) :=
        .command (g.mem_sharedWords (by decide)) (Markup.escape _).phrase
      rw [List.forall_mem_cons] at h
      have lines : ∀ p ∈ command "textbf" (escape name) :: rest.map contactLine,
          Phrase g p ∧ Firm p := by
        simp only [List.forall_mem_cons, List.mem_map, forall_exists_index, and_imp,
          forall_apply_eq_imp_iff₂]
        exact ⟨⟨bold.phrase, fun _ => rfl⟩,
          fun line mem => phrase_contactLine (h.2 line mem).1 (h.2 line mem).2⟩
      refine .joinLines (fun p mem => (lines p mem).1) ?_ fun p mem t => ⟨rfl, rfl⟩
      intro p mem fs t neutral
      exact .head (.lineBreak fun _ => (lines p mem).2 t) ((lines p mem).1 fs t neutral)

theorem Markup.smallLine : Markup g (control "small" ++ "\n".toList) :=
  .word (g.mem_sharedWords (by decide)) (.text rfl) rfl

theorem Markup.line : Markup g "\n".toList :=
  .text rfl

theorem Markup.gap {length : String} (plain : length.toList.all isPlain = true) :
    Markup g ("\n\n" ++ Tex.command "vspace" length ++ "\n\n") :=
  .append (.append (.text rfl) (.command (g.mem_sharedWords (by decide)) (Markup.text plain).phrase))
    (.text rfl)

theorem Block.halfWidth {block : Tex} (h : Phrase g block) : Block g (halfWidth block) := by
  refine .environment (by decide) ?_ (Markup.smallLine.append_phrase h)
  refine .append (.bracketed (Markup.text rfl).phrase) (.braced ?_)
  exact (Markup.text rfl).append_phrase (.word (g.mem_sharedWords (by decide)))

theorem Block.beside {left right : Tex} (hl : Block g left) (hr : Block g right) (neL : left ≠ [])
    (neR : right ≠ []) : Block g (left ++ "\n" ++ control "hfill" ++ "\n" ++ right) := by
  have filled : Markup g (control "hfill" ++ "\n".toList) :=
    .word (g.mem_sharedWords (by decide)) .line rfl
  simpa only [List.append_assoc] using hl.around (Markup.line.append filled) hr neL neR

theorem Block.rows {rs : List Record} (h : ∀ r ∈ rs, ∀ line ∈ r, Solid line ∧ line ≠ []) :
    ∀ row ∈ Body.rows rs, Block g row ∧ row ≠ [] := by
  fun_induction Body.rows rs with
  | case1 => simp
  | case2 r =>
      have record := phrase_recordBlock (g := g) (h r (by simp))
      have inner : Phrase g (control "small" ++ "\n".toList ++ recordBlock r ++ "\n".toList) :=
        (Markup.smallLine.append_phrase record).append Markup.line.phrase ⟨rfl, rfl⟩
      simp only [List.mem_singleton, forall_eq]
      exact ⟨.braced inner, braced_ne_nil _⟩
  | case3 l r rs ih =>
      simp only [List.forall_mem_cons] at h
      have left := Block.halfWidth (phrase_recordBlock (g := g) h.1)
      have right := Block.halfWidth (phrase_recordBlock (g := g) h.2.1)
      rw [List.forall_mem_cons]
      refine ⟨⟨left.beside right (environment_ne_nil _ _ _) (environment_ne_nil _ _ _), ?_⟩, ih h.2.2⟩
      simp [Body.halfWidth, environment_ne_nil]

theorem solid_of_mem_records {text : List Char} :
    ∀ r ∈ records text, ∀ line ∈ r, Solid line ∧ line ≠ [] := by
  intro r mem line memLine
  have all : line ∈ (records text).flatten := List.mem_flatten.mpr ⟨r, mem, memLine⟩
  rw [flatten_records] at all
  exact ⟨(isTrimmedLine_of_mem all).solid, (isTrimmedLine_of_mem all).present⟩

theorem Block.referenceBlocks (text : List Char) : Block g (referenceBlocks text) :=
  .join (.gap (by decide)) (Block.rows solid_of_mem_records)

/-! ## Bodies -/

theorem Block.format (content : List Char) (types : FieldTypes) (links : List Link) :
    Block g (format content types links) := by
  have text : Block g (textBody content types) := by
    unfold textBody
    split
    · exact .bulletList content
    · split
      · exact .referenceBlocks content
      · exact .escapeTrimmed content
  have list : Block g (linkBody types links) := by
    unfold linkBody
    split
    · exact .linkList links
    · exact .nil
  exact .joinPresent (.text rfl) (forall_mem_pair text list)

end Vitae.Tex
