import Vitae.Proofs.CommandLine.Arguments
import Vitae.Proofs.CommandLine.Failures
import Vitae.Proofs.Files.Named
import Vitae.Proofs.Files.Output
import Mathlib.Logic.Relation

/-!
# Where a call writes

A call goes from one state of a disk to another by steps of which each changes no file, or the one of an output
that belongs to an input (`Disk.Confined`). `Disk.confined_run` says so of one job, and what does jobs one after
the other, for the arguments or for what a watcher tells, is confined as they are.
-/

namespace Vitae

open BuildService CommandLine Vitae.Path

variable {σ ι α : Type}

/-! ## Confined steps -/

/-- What a step may do: wait for an event, while others do what they like, or change no file, or fill one at a
permitted path. -/
inductive Disk.Touches (disk : Disk σ ι) (events : List (StateM σ α)) (permitted : Path → Prop) (t u : σ) : Prop
  | waits {event : StateM σ α} (mem : event ∈ events) (after : (event t).2 = u)
  | grows (grows : disk.Grows t u)
  | fills {out : Path} {bytes : ByteArray} (permits : permitted out) (fills : disk.Fills t u out bytes)

def Disk.Confined (disk : Disk σ ι) (events : List (StateM σ α)) (permitted : Path → Prop) : σ → σ → Prop :=
  Relation.ReflTransGen (disk.Touches events permitted)

structure Disk.Tells (disk : Disk σ ι) (watcher : Watch.Watcher (StateM σ)) : Prop where
  resolve : ∀ p t, disk.entries (watcher.resolve p t).2 = disk.entries t
  start : ∀ p t, disk.entries (watcher.start p t).2 = disk.entries t

namespace Disk

variable {disk : Disk σ ι} {transport : Transport (StateM σ)} {s : Settings} {p : Path} {t u : σ}
  {permitted : Path → Prop}

section

variable {events : List (StateM σ α)}

theorem Grows.confined (grows : disk.Grows t u) : disk.Confined events permitted t u :=
  .single (.grows grows)

theorem keeps_confined (disk : Disk σ ι) (events : List (StateM σ α)) (permitted : Path → Prop) :
    disk.host.Keeps (disk.Confined events permitted) where
  refl _ := .refl
  trans := Relation.ReflTransGen.trans
  readFile p t := (disk.keeps_host.readFile p t).confined
  makeDirectory p t := (disk.keeps_host.makeDirectory p t).confined
  isDirectory p t := (disk.keeps_host.isDirectory p t).confined

/-! ## Jobs -/

theorem confined_run (spares : disk.Spares transport) (names : disk.NamesFiles)
    (several : s.multiple = true ∨ s.output = none)
    (permits : ∀ out, OutputAt s.extension s.output p out → permitted out) :
    Within (disk.Confined events permitted) (Job.run disk.host transport s (.file p)) := by
  intro t
  have step := run_step spares s (.file p) t
  generalize ran : (Job.run disk.host transport s (.file p)) t = result at step ⊢
  obtain ⟨e | w, u⟩ := result
  · exact step.confined
  · -- What has been done tells that the input was read and the output written, so both have names.
    obtain ⟨input, output⟩ := isNamed_of_run names ran
    obtain ⟨path, d, loaded, room, bytes, -, -, -, fills, -⟩ := step
    rw [path] at fills
    exact .single (.fills (permits _ (outputAt_output input output several)) fills)

theorem outputAt_of_done (names : disk.NamesFiles) (several : s.multiple = true ∨ s.output = none)
    {ps : List Path} {ws : List Job.Written} (done : disk.Done transport s (ps.map .file) ws t u) :
    List.Forall₂ (fun p w => OutputAt s.extension s.output p w.path) ps ws := by
  induction ps generalizing t ws with
  | nil =>
    cases done
    exact .nil
  | cons p ps ih =>
    cases done with
    | cons ran makes rest =>
      obtain ⟨input, output⟩ := isNamed_of_run names ran
      refine .cons ?_ (ih rest)
      rw [makes.1]
      exact outputAt_output input output several

theorem confined_rebuild (spares : disk.Spares transport)
    (names : disk.NamesFiles) (several : s.multiple = true ∨ s.output = none)
    (permits : ∀ out, OutputAt s.extension s.output p out → permitted out) :
    Within (disk.Confined events permitted) (Watch.rebuild disk.host transport s p) := by
  intro t
  rw [Watch.rebuild_eq, run_map]
  exact confined_run spares names several permits t

theorem confined_runAll {inputs : List Input}
    (each : ∀ input ∈ inputs, Within (disk.Confined events permitted) (Job.run disk.host transport s input)) :
    Within (disk.Confined events permitted) (Job.runAll disk.host transport s inputs) := by
  have keeps := disk.keeps_confined events permitted
  induction inputs with
  | nil => exact keeps.pure _
  | cons input inputs ih =>
    rw [List.forall_mem_cons] at each
    apply keeps.bind each.1
    intro result
    cases result with
    | error e => exact keeps.pure _
    | ok w => exact keeps.bind (ih each.2) fun _ => keeps.pure _

theorem confined_runJobs {inputs : List Input}
    (each : ∀ input ∈ inputs, Within (disk.Confined events permitted) (Job.run disk.host transport s input)) :
    Within (disk.Confined events permitted) (runJobs disk.host transport s inputs) := by
  have keeps := disk.keeps_confined events permitted
  apply keeps.bind (confined_runAll each)
  rintro ⟨ws, failure⟩
  cases failure <;> exact keeps.pure _

end

/-! ## Watching -/

section

variable {watcher : Watch.Watcher (StateM σ)} {tracked : List Watch.Tracked} {files : List Path}

theorem mem_of_track {found : List Watch.Tracked}
    (h : (Watch.track watcher tracked files) t = (.ok found, u)) :
    ∀ file ∈ found, file ∈ tracked ∨ file.input ∈ files := by
  induction files generalizing t tracked with
  | nil =>
    cases h
    exact fun file mem => .inl mem
  | cons input files ih =>
    obtain ⟨known, v, -, h⟩ := run_bind_eq_ok h
    obtain ⟨_, x, -, h⟩ := run_bind_eq_ok h
    intro file mem
    obtain here | later := ih h file mem
    · obtain rfl | earlier := List.mem_cons.mp here
      · exact .inr List.mem_cons_self
      · exact .inl earlier
    · exact .inr (List.mem_cons_of_mem _ later)

theorem confined_track (tells : disk.Tells watcher) (permitted : Path → Prop) (tracked : List Watch.Tracked)
    (files : List Path) :
    Within (disk.Confined watcher.events permitted) (Watch.track watcher tracked files) := by
  have keeps := disk.keeps_confined watcher.events permitted
  induction files generalizing tracked with
  | nil => exact keeps.pure _
  | cons input files ih =>
    apply keeps.tryBind (Within.lift fun t => (grows_of_eq (tells.resolve input t)).confined)
    intro known
    exact keeps.tryBind (fun t => (grows_of_eq (tells.start known t)).confined) fun _ => ih _

theorem confined_handle (tells : disk.Tells watcher)
    (each : ∀ file ∈ tracked,
      Within (disk.Confined watcher.events permitted) (Watch.rebuild disk.host transport s file.input))
    (changed : List Path) :
    Within (disk.Confined watcher.events permitted)
      (Watch.handle disk.host transport watcher.resolve s tracked changed) := by
  have keeps := disk.keeps_confined watcher.events permitted
  induction changed with
  | nil => exact keeps.pure _
  | cons path more ih =>
    apply keeps.bind fun t => (grows_of_eq (tells.resolve path t)).confined
    intro known
    split
    · exact ih
    · case h_2 file found =>
      apply keeps.bind (each file (List.mem_of_find?_eq_some found))
      exact fun result => keeps.bind ih fun results => keeps.pure _

theorem confined_follow (tells : disk.Tells watcher)
    (each : ∀ file ∈ tracked,
      Within (disk.Confined watcher.events permitted) (Watch.rebuild disk.host transport s file.input))
    {events : List (StateM σ (Except String (List Path)))} (among : events ⊆ watcher.events) :
    Within (disk.Confined watcher.events permitted)
      (Watch.follow disk.host transport watcher.resolve s tracked events) := by
  have keeps := disk.keeps_confined watcher.events permitted
  induction events with
  | nil => exact keeps.pure _
  | cons event events ih =>
    rw [List.cons_subset] at among
    apply keeps.tryBind fun t => .single (.waits among.1 rfl)
    intro changed
    exact keeps.tryBind (confined_handle tells each changed) fun _ => ih among.2

theorem confined_watch (tells : disk.Tells watcher)
    (each : ∀ file ∈ files,
      Within (disk.Confined watcher.events permitted) (Watch.rebuild disk.host transport s file)) :
    Within (disk.Confined watcher.events permitted) (Watch.run disk.host transport watcher s files) := by
  have keeps := disk.keeps_confined watcher.events permitted
  have watched : Within (disk.Confined watcher.events permitted) (do
      let tracked ← Watch.track watcher [] files
      Watch.follow disk.host transport watcher.resolve s tracked watcher.events :
        ExceptT String (StateM σ) Unit) := by
    intro t
    have started := confined_track tells permitted [] files t
    rw [run_bind]
    generalize tracking : (Watch.track watcher [] files) t = result at started ⊢
    obtain ⟨reason | found, u⟩ := result
    · exact started
    · -- Only inputs are tracked, so nothing else is made anew.
      have mem : ∀ file ∈ found, file.input ∈ files := fun file here =>
        (mem_of_track tracking file here).resolve_left List.not_mem_nil
      exact started.trans
        (confined_follow tells (fun file here => each _ (mem file here)) (List.Subset.refl _) u)
  apply keeps.bind watched
  intro result
  cases result <;> exact keeps.pure _

end

end Disk

/-! ## Calls -/

namespace CommandLine

variable {i : Invocation}

def Invocation.extension (i : Invocation) : Piece :=
  (if i.tex then "tex" else "pdf").toList

def Invocation.Outputs (i : Invocation) (out : Path) : Prop :=
  ∃ p ∈ i.inputs, OutputAt i.extension i.output p out

theorem ofInvocation_of_inputs {plan : Plan} (inputs : i.inputs ≠ []) (seed : i.seed = false)
    (h : Plan.ofInvocation i = .ok plan) :
    plan = .list ∨ ∃ layout, plan =
      if i.watch then .watch (i.settings layout) i.inputs else .jobs (i.settings layout) (i.inputs.map .file) := by
  have some : i.inputs.isEmpty = false := List.isEmpty_eq_false_iff.mpr inputs
  unfold Plan.ofInvocation at h
  simp only [seed, some, Bool.false_and, Bool.false_eq_true, if_false] at h
  split at h
  · cases h
    exact .inl rfl
  · split at h
    · cases h
    · split at h
      · cases h
      · case h_2 layout _ =>
        refine .inr ⟨layout, ?_⟩
        split at h <;> cases h <;> simp [*]

end CommandLine

namespace Disk

variable {disk : Disk σ ι} {transport : Transport (StateM σ)} {watcher : Watch.Watcher (StateM σ)}
  {standardInput : StateM σ (Except String ByteArray)} {endpoint : Option String} {arguments : List String}
  {i : Invocation} {t u : σ}

theorem confined_plan {plan : Plan} (spares : disk.Spares transport) (names : disk.NamesFiles)
    (tells : disk.Tells watcher) (inputs : i.inputs ≠ []) (seed : i.seed = false)
    (several : 1 < i.inputs.length ∨ i.output = none) (h : Plan.ofInvocation i = .ok plan)
    (standardInput : StateM σ (Except String ByteArray)) :
    Within (disk.Confined (if i.watch then watcher.events else []) i.Outputs)
      (plan.run disk.host transport standardInput (Watch.run disk.host transport watcher)) := by
  have keeps := disk.keeps_confined (if i.watch then watcher.events else []) i.Outputs
  obtain rfl | ⟨layout, planned⟩ := ofInvocation_of_inputs inputs seed h
  · exact keeps.pure _
  · have several : (i.settings layout).multiple = true ∨ (i.settings layout).output = none :=
      several.imp_left (decide_eq_true ·)
    have permits : ∀ p ∈ i.inputs, ∀ out,
        OutputAt (i.settings layout).extension (i.settings layout).output p out → i.Outputs out :=
      fun p mem out output => ⟨p, mem, output⟩
    cases watch : i.watch with
    | true =>
      rw [watch, if_pos rfl] at planned
      rw [planned, if_pos rfl]
      exact confined_watch tells fun p mem => confined_rebuild spares names several (permits p mem)
    | false =>
      rw [watch, if_neg Bool.false_ne_true] at planned
      rw [planned, if_neg Bool.false_ne_true]
      apply confined_runJobs
      rw [List.forall_mem_map]
      exact fun p mem => confined_run spares names several (permits p mem)

section

variable {outcome : Outcome}

theorem confined_call (spares : disk.Spares transport) (names : disk.NamesFiles) (tells : disk.Tells watcher)
    (parsed : Invocation.ofArguments arguments = .ok i) (inputs : i.inputs ≠ [])
    (several : 1 < i.inputs.length ∨ i.output = none)
    (ran : (run disk.host transport standardInput (Watch.run disk.host transport watcher) endpoint arguments) t =
      (outcome, u)) :
    disk.Confined (if i.watch then watcher.events else []) i.Outputs t u := by
  obtain ⟨message, -, rfl⟩ | ⟨plan, planned, ran⟩ := planned_of_run parsed ran
  · exact .refl
  · have seed : i.seed = false := seed_of_inputs parsed inputs
    have confined := confined_plan (i := { i with endpoint := i.endpoint <|> endpoint })
      spares names tells inputs seed several planned standardInput t
    rwa [ran] at confined

theorem done_of_success (spares : disk.Spares transport) (names : disk.NamesFiles)
    (parsed : Invocation.ofArguments arguments = .ok i) (inputs : i.inputs ≠ [])
    (several : 1 < i.inputs.length ∨ i.output = none) (files : i.MakesFiles)
    {watch : Settings → List Path → StateM σ Outcome}
    (ran : (run disk.host transport standardInput watch endpoint arguments) t = (outcome, u))
    (success : outcome.exit = 0) : ∃ layout ws,
      disk.Done transport (Invocation.settings { i with endpoint := i.endpoint <|> endpoint } layout)
        (i.inputs.map .file) ws t u ∧
      List.Forall₂ (fun p w => OutputAt i.extension i.output p w.path) i.inputs ws := by
  have failure : (1 : UInt8) ≠ 0 := by decide
  obtain ⟨message, rfl, -⟩ | ⟨layout, -, done, ws, v, chain, last⟩ :=
    ends_of_run spares parsed files inputs ran
  · exact absurd success failure
  · obtain ⟨rfl, rfl, -⟩ | ⟨input, later, e, -, -, -, rfl⟩ := last
    · exact ⟨layout, ws, chain, outputAt_of_done names (several.imp_left (decide_eq_true ·)) chain⟩
    · exact absurd success failure

/-- Whatever the inputs of a call are, the files that it writes have the names of inputs with the extension of the
output, and are in the directory that is asked for if there are several, or each beside its input where none
is asked for. A call that makes files and succeeds has made one for each input. -/
theorem outputs_confined (spares : disk.Spares transport) (names : disk.NamesFiles)
    (tells : disk.Tells watcher) (parsed : Invocation.ofArguments arguments = .ok i) (inputs : i.inputs ≠ [])
    (several : 1 < i.inputs.length ∨ i.output = none)
    (ran : (run disk.host transport standardInput (Watch.run disk.host transport watcher) endpoint arguments) t =
      (outcome, u)) :
    disk.Confined (if i.watch then watcher.events else []) i.Outputs t u ∧
      (∀ (tree : FileTree) (out : Path), i.Outputs out →
        ∃ p ∈ i.inputs, ∃ name outName, p.fileName? = some name ∧ Renamed i.extension name outName ∧
          tree.place out = tree.directoryFor i.output p ++ [outName]) ∧
      (i.MakesFiles → outcome.exit = 0 → ∃ layout ws,
        disk.Done transport (Invocation.settings { i with endpoint := i.endpoint <|> endpoint } layout)
          (i.inputs.map .file) ws t u ∧
        List.Forall₂ (fun p w => OutputAt i.extension i.output p w.path) i.inputs ws) := by
  refine ⟨confined_call spares names tells parsed inputs several ran, ?_,
    fun files => done_of_success spares names parsed inputs several files ran⟩
  rintro tree out ⟨p, mem, output⟩
  exact ⟨p, mem, output.place tree⟩

end

def besideAndHidden : FileTree where
  entries :=
    [(["x".toList], .directory), (["a.b.json".toList], .file "\x7b\"name\":\"A\"\x7d".toUTF8),
      ([".hidden".toList], .file "\x7b\"name\":\"B\"\x7d".toUTF8)]
  current := []

def twoProfiles : ClosedTree :=
  ⟨besideAndHidden, FileTree.closed_of_entries (by decide)⟩

def toldOnce : Watch.Watcher (StateM ClosedTree) where
  resolve := pure
  start _ := pure (.ok ())
  events := [pure (.ok [.ofString "./.hidden"])]

def runClosed (arguments : List String) : StateM ClosedTree Outcome :=
  run ClosedTree.disk.host .down (pure (.error "")) (Watch.run ClosedTree.disk.host .down toldOnce) none
    arguments

theorem outputs_confined_twoProfiles :
    let called := (runClosed ["--tex", "-o", "out/", "x/../a.b.json", "./.hidden"]) twoProfiles
    let watched := (runClosed ["--tex", "-wo", "out/", "x/../a.b.json", "./.hidden"]) twoProfiles
    let i : Invocation :=
      { inputs := ["x/../a.b.json", "./.hidden"].map .ofString, output := some (.ofString "out/"), tex := true }
    called.1.exit = 0 ∧ (called.2.1.file? ["out".toList, "a.b.tex".toList]).isSome = true ∧
      (called.2.1.file? ["out".toList, ".hidden.tex".toList]).isSome = true ∧
      (watched.2.1.file? ["out".toList, ".hidden.tex".toList]).isSome = true ∧
      ClosedTree.disk.Confined ([] : List (StateM ClosedTree (Except String (List Path)))) i.Outputs twoProfiles
        called.2 ∧
      ClosedTree.disk.Confined toldOnce.events i.Outputs twoProfiles watched.2 ∧
      (∃ p ∈ i.inputs, ∃ name outName, p.fileName? = some name ∧ Renamed i.extension name outName ∧
        besideAndHidden.place ((Path.ofString "out/").join ⟨".hidden.tex".toList⟩) =
          besideAndHidden.directoryFor i.output p ++ [outName]) ∧
      ∃ layout ws, ClosedTree.disk.Done .down (i.settings layout) (i.inputs.map .file) ws twoProfiles called.2 := by
  intro called watched i
  have tells : ClosedTree.disk.Tells toldOnce := ⟨fun _ _ => rfl, fun _ _ => rfl⟩
  have spares : ClosedTree.disk.Spares .down := fun _ _ _ => rfl
  have names := ClosedTree.namesFiles_disk
  have parsedCall : Invocation.ofArguments ["--tex", "-o", "out/", "x/../a.b.json", "./.hidden"] = .ok i := rfl
  have parsedWatch : Invocation.ofArguments ["--tex", "-wo", "out/", "x/../a.b.json", "./.hidden"] =
      .ok { i with watch := true } := rfl
  have success : called.1.exit = 0 := by decide +kernel
  obtain ⟨confinedCall, placed, made⟩ :=
    outputs_confined spares names tells parsedCall (by decide) (by decide) (Prod.eta called).symm
  obtain ⟨confinedWatch, -⟩ :=
    outputs_confined spares names tells parsedWatch (by decide) (by decide) (Prod.eta watched).symm
  have input : Path.Ends (.ofString "./.hidden") [['.']] ".hidden".toList := by constructor <;> decide
  have bare : '.' ∉ ".hidden".toList.tail := by decide
  have whole : ".hidden".toList ++ '.' :: i.extension = ".hidden.tex".toList := by decide
  have renamed : Renamed i.extension ".hidden".toList ".hidden.tex".toList := whole ▸ .appended bare
  have output : Path.Ends ((Path.ofString "out/").join ⟨".hidden.tex".toList⟩) ["out".toList]
      ".hidden.tex".toList := by
    constructor <;> decide
  have mem : Path.ofString "./.hidden" ∈ i.inputs := by decide
  have placed := placed besideAndHidden _ ⟨_, mem, .inside input renamed output⟩
  obtain ⟨layout, ws, done, -⟩ := made ⟨rfl, rfl, rfl⟩ success
  refine ⟨success, ?_, ?_, ?_, confinedCall, confinedWatch, placed, layout, ws, done⟩ <;> decide +kernel

end Disk

end Vitae
