import Vitae.Proofs.CommandLine.Outputs
import Vitae.Proofs.Files.Disk

namespace Vitae

open BuildService CommandLine

variable {σ ι : Type}

inductive Disk.Done (disk : Disk σ ι) (transport : Transport (StateM σ)) (s : Settings) :
    List Input → List Job.Written → σ → σ → Prop
  | nil (t : σ) : Done disk transport s [] [] t t
  | cons {input : Input} {inputs : List Input} {w : Job.Written} {ws : List Job.Written} {t v u : σ}
      (ran : (Job.run disk.host transport s input) t = (.ok w, v))
      (makes : disk.Makes transport s input t v w) (rest : Done disk transport s inputs ws v u) :
      Done disk transport s (input :: inputs) (w :: ws) t u

def told (ws : List Job.Written) : String :=
  String.join (ws.map fun w => "written " ++ w.path.toString ++ " (" ++ toString w.size ++ " bytes)\n")

/-- A call has done its jobs, or those before one that failed and left the files alone. It tells of the
outputs that have been made, and of no others. -/
def Disk.Ends (disk : Disk σ ι) (transport : Transport (StateM σ)) (s : Settings) (inputs : List Input)
    (t u : σ) (outcome : Outcome) : Prop :=
  ∃ done ws v, disk.Done transport s done ws t v ∧
    (inputs = done ∧ u = v ∧ outcome = ⟨0, told ws, ""⟩ ∨
      ∃ input later e, inputs = done ++ input :: later ∧
        (Job.run disk.host transport s input) v = (.error e, u) ∧ disk.Grows v u ∧
        outcome = failed (told ws) (jobMessage input e))

namespace Disk

variable {disk : Disk σ ι} {transport : Transport (StateM σ)} {s : Settings} {t u : σ}

theorem done_of_runAll (spares : disk.Spares transport) {inputs : List Input} {ws : List Job.Written}
    {failure : Option (Input × Job.Error)}
    (h : (Job.runAll disk.host transport s inputs) t = ((ws, failure), u)) :
    ∃ done v, disk.Done transport s done ws t v ∧ match failure with
      | none => inputs = done ∧ u = v
      | some (input, e) => ∃ later, inputs = done ++ input :: later ∧
          (Job.run disk.host transport s input) v = (.error e, u) := by
  induction inputs generalizing t ws with
  | nil =>
    cases h
    exact ⟨[], _, .nil _, rfl, rfl⟩
  | cons input inputs ih =>
    rw [run_runAll_cons] at h
    split at h
    · case h_1 e v failed =>
      cases h
      exact ⟨[], _, .nil _, inputs, rfl, failed⟩
    · case h_2 w v ran =>
      split at h
      case h_1 ws failure x rest =>
      cases h
      obtain ⟨done, y, chain, last⟩ := ih rest
      refine ⟨input :: done, y, .cons ran (run_ok spares ran) chain, ?_⟩
      cases failure with
      | none => exact ⟨congrArg (input :: ·) last.1, last.2⟩
      | some failure =>
        obtain ⟨later, cut, failed⟩ := last
        exact ⟨later, congrArg (input :: ·) cut, failed⟩

theorem ends_of_runJobs (spares : disk.Spares transport) {inputs : List Input} {outcome : Outcome}
    (h : (runJobs disk.host transport s inputs) t = (outcome, u)) :
    disk.Ends transport s inputs t u outcome := by
  rw [run_runJobs] at h
  split at h
  · case h_1 ws v ran =>
    cases h
    obtain ⟨done, v, chain, last⟩ := done_of_runAll spares ran
    exact ⟨done, ws, v, chain, .inl ⟨last.1, last.2, rfl⟩⟩
  · case h_2 ws input e v ran =>
    cases h
    obtain ⟨done, v, chain, later, cut, failed⟩ := done_of_runAll spares ran
    exact ⟨done, ws, v, chain, .inr ⟨input, later, e, cut, failed, run_error spares failed, rfl⟩⟩

theorem run_step (spares : disk.Spares transport) (s : Settings) (input : Input) (t : σ) :
    match (Job.run disk.host transport s input) t with
    | (.error _, u) => disk.Grows t u
    | (.ok w, u) => disk.Makes transport s input t u w := by
  split
  · case h_1 failed => exact run_error spares failed
  · case h_2 ran => exact run_ok spares ran

theorem rebuild_step (spares : disk.Spares transport) (s : Settings) (p : Path) (t : σ) :
    match (Watch.rebuild disk.host transport s p) t with
    | (.error _, u) => disk.Grows t u
    | (.ok path, u) => ∃ size, disk.Makes transport s (.file p) t u ⟨path, size⟩ := by
  have step := run_step spares s (.file p) t
  rw [Watch.rebuild_eq, run_map]
  generalize (Job.run disk.host transport s (.file p)) t = result at step ⊢
  obtain ⟨e | w, u⟩ := result
  · exact step
  · exact ⟨w.size, step⟩

theorem run_of_room {input : Input} {d : Document} {loaded room : σ} (pdf : s.texOnly = false)
    (read : (Job.document disk.host input) t = (.ok d, loaded))
    (made : (Job.makeRoom disk.host (Job.output s input)) loaded = (.ok (), room)) :
    (Job.run disk.host transport s input) t =
      match (build transport s.endpoint (s.layout.render d)) room with
      | (.error e, u) => (.error (.build e), u)
      | (.ok bytes, u) =>
        match disk.host.writeFile (Job.output s input) bytes u with
        | (.error cause, v) => (.error (.build (.unwritten cause)), v)
        | (.ok (), v) => (.ok ⟨Job.output s input, bytes.size⟩, v) := by
  rw [run_run, read]
  dsimp only
  rw [made]
  dsimp only
  rw [run_writeOutput, content_pdf _ _ pdf, pdf]
  obtain ⟨e | bytes, u⟩ := (build transport s.endpoint (s.layout.render d)) room
  · rfl
  · dsimp only
    obtain ⟨cause | _, v⟩ := disk.host.writeFile (Job.output s input) bytes u <;> rfl

theorem ends_of_run (spares : disk.Spares transport) {standardInput : StateM σ (Except String ByteArray)}
    {watch : Settings → List Path → StateM σ Outcome} {endpoint : Option String}
    {arguments : List String} {i : Invocation} {outcome : Outcome}
    (parsed : Invocation.ofArguments arguments = .ok i) (files : i.MakesFiles) (some : i.inputs ≠ [])
    (ran : (run disk.host transport standardInput watch endpoint arguments) t = (outcome, u)) :
    (∃ message, outcome = failed "" message ∧ u = t) ∨
    ∃ layout, Layout.ofId i.layout = .ok layout ∧
      disk.Ends transport (Invocation.settings { i with endpoint := i.endpoint <|> endpoint } layout)
        (i.inputs.map .file) t u outcome := by
  obtain ⟨message, rfl, rfl⟩ | ⟨plan, planned, ran⟩ := planned_of_run parsed ran
  · exact .inl ⟨message, rfl, rfl⟩
  · have files : Invocation.MakesFiles { i with endpoint := i.endpoint <|> endpoint } := files
    obtain ⟨layout, known, none | rfl⟩ := ofInvocation_eq_ok files planned
    · exact absurd none some
    · exact .inr ⟨layout, known, ends_of_runJobs spares ran⟩

/-! ## A profile among others that cannot be read -/

def threeProfiles : FileTree where
  entries :=
    [(["a.json".toList], .file "\x7b\"name\":\"A\"\x7d".toUTF8), (["b.json".toList], .file "\x7b".toUTF8),
      (["c.json".toList], .file "\x7b\"name\":\"C\"\x7d".toUTF8)]
  current := []

def printing : Transport (StateM FileTree) :=
  fun _ _ => pure (.ok ⟨201, some " Application/PDF; q=1".toList, "%PDF".toUTF8⟩)

def runThree : StateM FileTree Outcome :=
  run FileTree.host printing (pure (.error "")) (fun _ _ => pure (failed "" "")) none
    ["a.json", "b.json", "c.json"]

/-! ## Failures and files -/

/-- On every disk, a job that fails leaves all files as they are, whether it is called for or its input is
watched, and one that is done makes its output alone. A PDF is taken from the service if and only if the service
has made one. A call ends at the first of its jobs that fails. -/
theorem failures_spare_files (spares : disk.Spares transport) (s : Settings) (t : σ) :
    (∀ input, match (Job.run disk.host transport s input) t with
      | (.error _, u) => disk.Grows t u
      | (.ok w, u) => disk.Makes transport s input t u w) ∧
    (∀ p, match (Watch.rebuild disk.host transport s p) t with
      | (.error _, u) => disk.Grows t u
      | (.ok path, u) => ∃ size, disk.Makes transport s (.file p) t u ⟨path, size⟩) ∧
    (∀ input d loaded room, s.texOnly = false →
      (Job.document disk.host input) t = (.ok d, loaded) →
      (Job.makeRoom disk.host (Job.output s input)) loaded = (.ok (), room) →
      (∀ bytes u, (build transport s.endpoint (s.layout.render d)) room = (.ok bytes, u) ↔
        ∃ reply, transport s.endpoint (request (s.layout.render d)) room = (.ok reply, u) ∧
          reply.HoldsPdf ∧ bytes = reply.body) ∧
      (Job.run disk.host transport s input) t =
        match (build transport s.endpoint (s.layout.render d)) room with
        | (.error e, u) => (.error (.build e), u)
        | (.ok bytes, u) =>
          match disk.host.writeFile (Job.output s input) bytes u with
          | (.error cause, v) => (.error (.build (.unwritten cause)), v)
          | (.ok (), v) => (.ok ⟨Job.output s input, bytes.size⟩, v)) ∧
    (∀ standardInput watch endpoint arguments i outcome u, Invocation.ofArguments arguments = .ok i →
      i.MakesFiles → i.inputs ≠ [] →
      (run disk.host transport standardInput watch endpoint arguments) t = (outcome, u) →
      (∃ message, outcome = failed "" message ∧ u = t) ∨
      ∃ layout, Layout.ofId i.layout = .ok layout ∧
        disk.Ends transport (Invocation.settings { i with endpoint := i.endpoint <|> endpoint } layout)
          (i.inputs.map .file) t u outcome) :=
  ⟨fun input => run_step spares s input t, fun p => rebuild_step spares s p t,
    fun _ _ _ _ pdf read made => ⟨fun _ _ => build_eq_ok_iff, run_of_room pdf read made⟩,
    fun _ _ _ _ _ _ _ parsed files some ran => ends_of_run spares parsed files some ran⟩

theorem failures_spare_files_secondProfile :
    (runThree threeProfiles).1 = failed "written a.pdf (4 bytes)\n"
      "json parse error: EOF while parsing an object at line 1 column 1" ∧
    (∃ done ws v, FileTree.disk.Done printing { multiple := true } done ws threeProfiles v ∧
      told ws = "written a.pdf (4 bytes)\n" ∧
      FileTree.disk.Grows v (runThree threeProfiles).2) ∧
    (build printing defaultEndpoint (Layout.classic.render { identity := { name := "A" } }))
      threeProfiles = (.ok "%PDF".toUTF8, threeProfiles) := by
  have spares : FileTree.disk.Spares printing := fun _ _ _ => rfl
  have shown : (runThree threeProfiles).1 = failed "written a.pdf (4 bytes)\n"
      "json parse error: EOF while parsing an object at line 1 column 1" := by
    decide +kernel
  obtain ⟨-, -, compiles, calls⟩ := failures_spare_files spares {} threeProfiles
  refine ⟨shown, ?_, ?_⟩
  · have ran := Prod.eta (runThree threeProfiles)
    have parsed : Invocation.ofArguments ["a.json", "b.json", "c.json"] =
        .ok { inputs := ["a.json", "b.json", "c.json"].map .ofString } := rfl
    obtain ⟨message, refused, -⟩ | ⟨layout, known, done, ws, v, chain, last⟩ :=
      calls _ _ _ _ _ _ _ parsed ⟨rfl, rfl, rfl⟩ (List.cons_ne_nil _ _) ran.symm
    · have output : "written a.pdf (4 bytes)\n" = "" :=
        congrArg Outcome.output (shown.symm.trans refused)
      exact absurd output (by decide)
    · cases known
      obtain ⟨-, -, ended⟩ | ⟨input, later, e, -, -, grows, ended⟩ := last
      · have exit : (1 : UInt8) = 0 := congrArg Outcome.exit (shown.symm.trans ended)
        exact absurd exit (by decide)
      · have output := congrArg Outcome.output (shown.symm.trans ended)
        exact ⟨done, ws, v, chain, output.symm, grows⟩
  · have holds : Reply.HoldsPdf ⟨201, some " Application/PDF; q=1".toList, "%PDF".toUTF8⟩ :=
      ⟨by decide, [' '], "Application/PDF".toList, "; q=1".toList, rfl, rfl, rfl⟩
    exact ((compiles (.file (.ofString "a.json")) { identity := { name := "A" } } _ _ rfl rfl rfl).1 _ _).mpr
      ⟨_, rfl, holds, rfl⟩

end Disk

end Vitae
