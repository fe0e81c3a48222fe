import Vitae.Proofs.Files.Job
import Vitae.Proofs.Files.Rebuild

/-!
# What is left when a job fails

A `Disk` is a host of which nothing is known but what its operations do to the entries that paths lead to: it
may have links, permissions and other users, as long as a write that fails has changed nothing. On every disk
a job that fails leaves all files as they are, and one that succeeds makes a single file (`Disk.run_step`).
-/

namespace Vitae

open BuildService

variable {σ ι : Type}

/-! ## Disks -/

/-- What may become of an entry while no file is written: where there is none, a directory can be made. -/
def Entry.Stays (before after : Option Entry) : Prop :=
  after = before ∨ before = none ∧ after = some .directory

/-- A host, and the entries at places that a path may lead to. Only what is written is changed. -/
structure Disk (σ ι : Type) where
  host : Host (StateM σ)
  entries : σ → ι → Option Entry
  place : σ → Path → ι
  reads : ∀ p t, entries (host.readFile p t).2 = entries t
  looks : ∀ p t, entries (host.isDirectory p t).2 = entries t
  makes : ∀ p t i, Entry.Stays (entries t i) (entries (host.makeDirectory p t).2 i)
  refuses : ∀ p content t e u, host.writeFile p content t = (.error e, u) → entries u = entries t
  writes : ∀ p content t u, host.writeFile p content t = (.ok (), u) →
    entries u (place u p) = some (.file content) ∧ ∀ i, i ≠ place u p → entries u i = entries t i

theorem Entry.Stays.trans {before between after : Option Entry} (first : Stays before between)
    (second : Stays between after) : Stays before after := by
  obtain rfl | ⟨none, made⟩ := first
  · exact second
  · obtain rfl | ⟨gone, -⟩ := second
    · exact .inr ⟨none, made⟩
    · rw [made] at gone
      cases gone

theorem FileTree.Changes.stays {t u : FileTree} (changes : Changes t u []) {l : Location}
    {before after : Option Entry} (hb : t.entry? l = before) (ha : u.entry? l = after) :
    Entry.Stays before after := by
  have files := changes.file l List.not_mem_nil
  cases before with
  | none =>
    have noFile : t.file? l = none := by rw [file?, hb]
    rw [noFile] at files
    cases after with
    | none => exact .inl rfl
    | some e =>
      cases e with
      | directory => exact .inr ⟨rfl, rfl⟩
      | file content =>
        rw [file?_eq_some.mpr ha] at files
        cases files
  | some e =>
    cases e with
    | directory =>
      rw [changes.directory l hb] at ha
      exact .inl ha.symm
    | file content =>
      rw [file?_eq_some.mpr hb, file?_eq_some, ha] at files
      exact .inl files

def FileTree.disk : Disk FileTree Location where
  host := host
  entries := FileTree.entry?
  place := place
  reads _ _ := rfl
  looks _ _ := rfl
  makes p t _ := (keeps_host.makeDirectory p t).stays rfl rfl
  refuses p content t e u h := by
    change attempt (·.writeFile p content) t = _ at h
    unfold attempt at h
    split at h <;> cases h
    rfl
  writes p content t u h := by
    change attempt (·.writeFile p content) t = _ at h
    unfold attempt at h
    split at h
    · case h_1 written =>
      cases h
      exact entry?_of_writeFile written
    · cases h

namespace Disk

variable (disk : Disk σ ι)

/-- Nothing but directories has come to be. -/
def Grows (t u : σ) : Prop :=
  ∀ i, Entry.Stays (disk.entries t i) (disk.entries u i)

/-- The one file that has come to be or has changed is that of a path, and it holds the given bytes. -/
def Fills (t u : σ) (p : Path) (bytes : ByteArray) : Prop :=
  disk.entries u (disk.place u p) = some (.file bytes) ∧
    ∀ i, i ≠ disk.place u p → Entry.Stays (disk.entries t i) (disk.entries u i)

def Spares (transport : Transport (StateM σ)) : Prop :=
  ∀ endpoint request t, disk.entries (transport endpoint request t).2 = disk.entries t

variable {disk} {t u v : σ} {p : Path} {bytes : ByteArray} {transport : Transport (StateM σ)}

theorem grows_of_eq (same : disk.entries u = disk.entries t) : disk.Grows t u :=
  fun i => .inl (congrFun same i)

theorem Grows.trans (first : disk.Grows t u) (second : disk.Grows u v) : disk.Grows t v :=
  fun i => (first i).trans (second i)

theorem Grows.fills (grows : disk.Grows t u) (fills : disk.Fills u v p bytes) : disk.Fills t v p bytes :=
  ⟨fills.1, fun i other => (grows i).trans (fills.2 i other)⟩

theorem keeps_host (disk : Disk σ ι) : disk.host.Keeps disk.Grows where
  refl _ := grows_of_eq rfl
  trans := Grows.trans
  readFile p t := grows_of_eq (disk.reads p t)
  makeDirectory := disk.makes
  isDirectory p t := grows_of_eq (disk.looks p t)

theorem fills_of_writeFile (h : disk.host.writeFile p bytes t = (.ok (), u)) : disk.Fills t u p bytes :=
  have ⟨here, elsewhere⟩ := disk.writes p bytes t u h
  ⟨here, fun i other => .inl (elsewhere i other)⟩

end Disk

/-! ## Replies -/

def BuildService.Reply.HoldsPdf (r : Reply) : Prop :=
  (200 ≤ r.status ∧ r.status ≤ 299) ∧
    ∃ blanks name rest, r.contentType = some (blanks ++ name ++ rest) ∧ Text.allBlank blanks = true ∧
      name.map Char.toLower = "application/pdf".toList

section

open Text

theorem isBlank_of_toLower {c : Char} (lower : c.toLower = 'a') : isBlank c = false := by
  unfold Char.toLower at lower
  split at lower
  · case isTrue upper =>
    have above : 65 ≤ c.toNat := upper.1
    have below : c.toNat ≤ 90 := upper.2
    simp [isBlank, blankRanges]
    omega
  · rw [lower]
    decide

theorem isPdf_iff {r : Reply} : r.isPdf = true ↔
    ∃ blanks name rest, r.contentType = some (blanks ++ name ++ rest) ∧ allBlank blanks = true ∧
      name.map Char.toLower = "application/pdf".toList := by
  unfold Reply.isPdf
  rw [Option.any_eq_true]
  constructor
  · rintro ⟨t, type, pdf⟩
    obtain ⟨tail, eq⟩ := List.isPrefixOf_iff_prefix.mp pdf
    obtain ⟨name, rest, cut, lower, -⟩ := List.map_eq_append_iff.mp eq.symm
    refine ⟨t.takeWhile isBlank, name, rest, ?_, List.all_takeWhile, lower⟩
    rw [type, List.append_assoc, ← cut, trimStart, List.takeWhile_append_dropWhile]
  · rintro ⟨blanks, name, rest, type, blank, lower⟩
    refine ⟨_, type, List.isPrefixOf_iff_prefix.mpr ⟨rest.map Char.toLower, ?_⟩⟩
    have visible : trimStart (name ++ rest) = name ++ rest := by
      cases name with
      | nil => cases lower
      | cons c name =>
        have first : isBlank c = false := isBlank_of_toLower (List.cons.inj lower).1
        rw [trimStart, List.cons_append, List.dropWhile_cons_of_neg (by simp [first])]
    rw [List.append_assoc, trimStart, List.dropWhile_append_of_pos (List.all_eq_true.mp blank),
      ← trimStart, visible, List.map_append, lower]

theorem pdf_eq_ok {r : Reply} {bytes : ByteArray} : r.pdf = .ok bytes ↔ r.HoldsPdf ∧ bytes = r.body := by
  unfold Reply.HoldsPdf
  rw [← isPdf_iff]
  have success : r.isSuccess = true ↔ 200 ≤ r.status ∧ r.status ≤ 299 := by simp [Reply.isSuccess]
  rw [← success]
  unfold Reply.pdf
  cases r.isSuccess <;> cases r.isPdf <;> simp [eq_comm]

end

theorem build_eq_ok_iff {transport : Transport (StateM σ)} {endpoint : String} {source : Tex} {t u : σ}
    {bytes : ByteArray} : (build transport endpoint source) t = (.ok bytes, u) ↔
      ∃ reply, transport endpoint (request source) t = (.ok reply, u) ∧ reply.HoldsPdf ∧
        bytes = reply.body := by
  rw [run_build]
  obtain ⟨r, v⟩ := transport endpoint (request source) t
  cases r with
  | error reason =>
    constructor
    · intro h
      cases h
    · rintro ⟨reply, ⟨⟩, -⟩
  | ok reply =>
    constructor
    · intro h
      obtain ⟨made, rfl⟩ := Prod.mk.inj h
      exact ⟨reply, rfl, pdf_eq_ok.mp made⟩
    · rintro ⟨_, ⟨⟩, made⟩
      exact Prod.ext (pdf_eq_ok.mpr made) rfl

/-! ## One job -/

namespace Disk

variable (disk : Disk σ ι)

def Answers (transport : Transport (StateM σ)) (s : Settings) (source : Tex) (t : σ) (bytes : ByteArray) :
    Prop :=
  if s.texOnly then bytes = (String.ofList source).toUTF8
  else ∃ reply u, transport s.endpoint (request source) t = (.ok reply, u) ∧ reply.HoldsPdf ∧
    bytes = reply.body

/-- A job is done: the file at its output holds what its document gave, and no other one is changed. -/
def Makes (transport : Transport (StateM σ)) (s : Settings) (input : Input) (t u : σ)
    (w : Job.Written) : Prop :=
  w.path = Job.output s input ∧ ∃ d loaded room bytes,
    (Job.document disk.host input) t = (.ok d, loaded) ∧
    (Job.makeRoom disk.host w.path) loaded = (.ok (), room) ∧
    Answers transport s (s.layout.render d) room bytes ∧ disk.Fills t u w.path bytes ∧
    w.size = bytes.size

variable {disk} {t u : σ} {p : Path} {transport : Transport (StateM σ)} {s : Settings} {source : Tex}

theorem grows_of_content (spares : disk.Spares transport) {r : Except BuildService.Error ByteArray}
    (h : (Job.content transport s source) t = (r, u)) : disk.Grows t u := by
  cases tex : s.texOnly with
  | true =>
    rw [run_content_tex _ _ _ tex] at h
    cases h
    exact grows_of_eq rfl
  | false =>
    have kept := spares s.endpoint (request source) t
    rw [content_pdf _ _ tex, run_build] at h
    generalize transport s.endpoint (request source) t = sent at h kept
    obtain ⟨reply | reply, v⟩ := sent <;> cases h <;> exact grows_of_eq kept

theorem answers_of_content {bytes : ByteArray} (h : (Job.content transport s source) t = (.ok bytes, u)) :
    Answers transport s source t bytes := by
  cases tex : s.texOnly with
  | true =>
    rw [run_content_tex _ _ _ tex] at h
    cases h
    rw [Answers, if_pos tex]
  | false =>
    rw [content_pdf _ _ tex] at h
    obtain ⟨reply, sent, holds, body⟩ := build_eq_ok_iff.mp h
    rw [Answers, tex, if_neg Bool.false_ne_true]
    exact ⟨reply, u, sent, holds, body⟩

theorem writeOutput_error (spares : disk.Spares transport) {e : Job.Error}
    (h : (Job.writeOutput disk.host transport s p source) t = (.error e, u)) : disk.Grows t u := by
  rw [run_writeOutput] at h
  split at h
  · case h_1 failed =>
    cases h
    exact grows_of_content spares failed
  · case h_2 ready =>
    split at h
    · case h_1 refused =>
      cases h
      exact (grows_of_content spares ready).trans (grows_of_eq (disk.refuses _ _ _ _ _ refused))
    · cases h

theorem run_error (spares : disk.Spares transport) {input : Input} {e : Job.Error}
    (h : (Job.run disk.host transport s input) t = (.error e, u)) : disk.Grows t u := by
  have loaded := disk.keeps_host.document input t
  rw [run_run] at h
  split at h
  · case h_1 failed =>
    cases h
    rwa [failed] at loaded
  · case h_2 d v read =>
    rw [read] at loaded
    have made := disk.keeps_host.makeRoom (Job.output s input) v
    split at h
    · case h_1 failed =>
      cases h
      rw [failed] at made
      exact loaded.trans made
    · case h_2 x room =>
      rw [room] at made
      split at h
      · case h_1 failed =>
        cases h
        exact (loaded.trans made).trans (writeOutput_error spares failed)
      · cases h

theorem run_ok (spares : disk.Spares transport) {input : Input} {w : Job.Written}
    (h : (Job.run disk.host transport s input) t = (.ok w, u)) :
    disk.Makes transport s input t u w := by
  obtain ⟨d, loaded, room, bytes, v, read, made, ready, written, rfl⟩ := run_eq_ok h
  have first := disk.keeps_host.document input t
  rw [read] at first
  have second := disk.keeps_host.makeRoom (Job.output s input) loaded
  rw [made] at second
  have fills := (grows_of_content spares ready).fills (fills_of_writeFile written)
  exact ⟨rfl, d, loaded, room, bytes, read, made, answers_of_content ready, (first.trans second).fills fills,
    rfl⟩

end Disk

end Vitae
