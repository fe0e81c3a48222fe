import Vitae.Job

namespace Vitae

variable {σ α β ε ε' : Type} {t u : σ}

/-! ## Results of steps -/

theorem bind_apply (x : StateM σ α) (f : α → StateM σ β) (t : σ) : (x >>= f) t = f (x t).1 (x t).2 :=
  rfl

theorem run_bind (x : ExceptT ε (StateM σ) α) (f : α → ExceptT ε (StateM σ) β) (t : σ) :
    (x >>= f) t = match x t with
      | (.ok a, u) => f a u
      | (.error e, u) => (.error e, u) := by
  have next : (x >>= f) t = ExceptT.bindCont f (x t).1 (x t).2 := rfl
  rw [next]
  obtain ⟨r, u⟩ := x t
  cases r <;> rfl

theorem run_bind_eq_ok {x : ExceptT ε (StateM σ) α} {f : α → ExceptT ε (StateM σ) β} {b : β}
    (h : (x >>= f) t = (.ok b, u)) : ∃ a v, x t = (.ok a, v) ∧ f a v = (.ok b, u) := by
  rw [run_bind] at h
  split at h
  · case h_1 a v first => exact ⟨a, v, first, h⟩
  · cases h

theorem run_map (f : α → β) (x : ExceptT ε (StateM σ) α) (t : σ) :
    (f <$> x) t = ((x t).1.map f, (x t).2) := by
  rw [map_eq_pure_bind, run_bind]
  obtain ⟨r, u⟩ := x t
  cases r <;> rfl

theorem run_adapt (x : ExceptT ε (StateM σ) α) (wrap : ε → ε') (t : σ) :
    (ExceptT.adapt wrap x) t = ((x t).1.mapError wrap, (x t).2) :=
  rfl

theorem run_adapt_eq_ok {x : ExceptT ε (StateM σ) α} {wrap : ε → ε'} {a : α}
    (h : (ExceptT.adapt wrap x) t = (.ok a, u)) : x t = (.ok a, u) := by
  rw [run_adapt] at h
  obtain ⟨result, rfl⟩ := Prod.mk.inj h
  cases first : (x t).1 with
  | error e =>
    rw [first] at result
    cases result
  | ok b =>
    rw [first] at result
    cases result
    exact Prod.ext first rfl

theorem run_lift (x : StateM σ α) (t : σ) :
    (liftM x : ExceptT ε (StateM σ) α) t = (.ok (x t).1, (x t).2) :=
  rfl

/-! ## Results of reading -/

section

variable {host : Host (StateM σ)} {p : Path}

theorem readText_eq_ok {text : String} (h : (host.readText p) t = (.ok text, u)) :
    ∃ content, host.readFile p t = (.ok content, u) ∧ String.fromUTF8? content = some text := by
  rw [Host.readText, bind_apply] at h
  generalize host.readFile p t = read at h ⊢
  obtain ⟨e | content, v⟩ := read
  · cases h
  · cases decoded : String.fromUTF8? content with
    | none =>
      simp only [decoded] at h
      cases h
    | some s =>
      simp only [decoded] at h
      cases h
      exact ⟨content, rfl, decoded⟩

theorem run_load (host : Host (StateM σ)) (p : Path) (t : σ) :
    (Profile.load host p) t = match (host.readText p) t with
      | (.error cause, u) => (.error (.unreadable p cause), u)
      | (.ok text, u) => (Profile.parse (Profile.Format.detect (some p) text.toList) text.toList, u) := by
  rw [Profile.load, run_bind, run_lift]
  obtain ⟨r, u⟩ := (host.readText p) t
  cases r <;> rfl

theorem load_eq_ok {d : Document} (h : (Profile.load host p) t = (.ok d, u)) :
    ∃ content text, host.readFile p t = (.ok content, u) ∧ String.fromUTF8? content = some text ∧
      Profile.parse (Profile.Format.detect (some p) text.toList) text.toList = .ok d := by
  rw [run_load] at h
  split at h
  · cases h
  · case h_2 text v read =>
    obtain ⟨parsed, rfl⟩ := Prod.mk.inj h
    obtain ⟨content, found, decoded⟩ := readText_eq_ok read
    exact ⟨content, text, found, decoded, parsed⟩

end

/-! ## Results of asking and writing -/

section

open BuildService

variable (host : Host (StateM σ)) (transport : Transport (StateM σ)) {s : Settings} (p : Path)
  (source : Tex) (t : σ)

theorem run_build (endpoint : String) :
    (build transport endpoint source) t = match transport endpoint (request source) t with
      | (.error reason, u) => (.error (.unreachable reason), u)
      | (.ok reply, u) => (reply.pdf, u) := by
  rw [build, run_bind, run_lift]
  obtain ⟨r, u⟩ := transport endpoint (request source) t
  cases r <;> rfl

def Job.content (transport : Transport (StateM σ)) (s : Settings) (source : Tex) :
    ExceptT BuildService.Error (StateM σ) ByteArray :=
  if s.texOnly then pure (String.ofList source).toUTF8 else build transport s.endpoint source

theorem run_content_tex (tex : s.texOnly = true) :
    (Job.content transport s source) t = (.ok (String.ofList source).toUTF8, t) := by
  rw [Job.content, if_pos tex]
  rfl

theorem content_pdf (pdf : s.texOnly = false) :
    Job.content transport s source = build transport s.endpoint source := by
  rw [Job.content, pdf, if_neg Bool.false_ne_true]

theorem run_writeOutput :
    (Job.writeOutput host transport s p source) t =
      match (Job.content transport s source) t with
      | (.error e, u) => (.error (.build e), u)
      | (.ok bytes, u) =>
        match host.writeFile p bytes u with
        | (.error cause, v) => (.error (if s.texOnly then .write p cause else .build (.unwritten cause)), v)
        | (.ok (), v) => (.ok bytes.size, v) := by
  unfold Job.writeOutput
  cases tex : s.texOnly with
  | true =>
    rw [if_pos rfl, run_bind, run_lift, run_content_tex _ _ _ tex]
    dsimp only
    obtain ⟨r, u⟩ := host.writeFile p (String.ofList source).toUTF8 t
    cases r <;> rfl
  | false =>
    rw [if_neg Bool.false_ne_true, buildTo, run_bind, run_adapt, run_bind, content_pdf _ _ tex]
    obtain ⟨e | bytes, u⟩ := (build transport s.endpoint source) t
    · rfl
    · dsimp only
      rw [run_bind, run_lift]
      obtain ⟨r, v⟩ := host.writeFile p bytes u
      cases r <;> rfl

variable {host transport p source t}

theorem writeOutput_eq_ok {n : Nat} (h : (Job.writeOutput host transport s p source) t = (.ok n, u)) :
    ∃ bytes v, (Job.content transport s source) t = (.ok bytes, v) ∧
      host.writeFile p bytes v = (.ok (), u) ∧ n = bytes.size := by
  rw [run_writeOutput] at h
  split at h
  · cases h
  · case h_2 bytes v ready =>
    split at h
    · cases h
    · case h_2 written =>
      cases h
      exact ⟨bytes, v, ready, written, rfl⟩

end

/-! ## Results of jobs -/

theorem run_run (host : Host (StateM σ)) (transport : BuildService.Transport (StateM σ)) (s : Settings)
    (input : Input) (t : σ) :
    (Job.run host transport s input) t =
      match (Job.document host input) t with
      | (.error e, u) => (.error (.profile e), u)
      | (.ok d, u) =>
        match (Job.makeRoom host (Job.output s input)) u with
        | (.error e, v) => (.error e, v)
        | (.ok (), v) =>
          match (Job.writeOutput host transport s (Job.output s input) (s.layout.render d)) v with
          | (.error e, x) => (.error e, x)
          | (.ok size, x) => (.ok ⟨Job.output s input, size⟩, x) := by
  rw [Job.run, run_bind, run_adapt]
  obtain ⟨e | d, u⟩ := (Job.document host input) t
  · rfl
  · dsimp only [Except.mapError]
    rw [run_bind]
    obtain ⟨e | _, v⟩ := (Job.makeRoom host (Job.output s input)) u
    · rfl
    · dsimp only
      rw [run_bind]
      obtain ⟨e | size, x⟩ := (Job.writeOutput host transport s (Job.output s input) (s.layout.render d)) v <;>
        rfl

theorem run_eq_ok {host : Host (StateM σ)} {transport : BuildService.Transport (StateM σ)} {s : Settings}
    {input : Input} {w : Job.Written} (h : (Job.run host transport s input) t = (.ok w, u)) :
    ∃ d loaded room bytes v, (Job.document host input) t = (.ok d, loaded) ∧
      (Job.makeRoom host (Job.output s input)) loaded = (.ok (), room) ∧
      (Job.content transport s (s.layout.render d)) room = (.ok bytes, v) ∧
      host.writeFile (Job.output s input) bytes v = (.ok (), u) ∧ w = ⟨Job.output s input, bytes.size⟩ := by
  obtain ⟨d, loaded, read, h⟩ := run_bind_eq_ok h
  obtain ⟨_, room, made, h⟩ := run_bind_eq_ok h
  obtain ⟨size, v, done, last⟩ := run_bind_eq_ok h
  cases last
  obtain ⟨bytes, v, ready, written, rfl⟩ := writeOutput_eq_ok done
  exact ⟨d, loaded, room, bytes, v, run_adapt_eq_ok read, made, ready, written, rfl⟩

theorem run_runAll_cons (host : Host (StateM σ)) (transport : BuildService.Transport (StateM σ))
    (s : Settings) (input : Input) (inputs : List Input) (t : σ) :
    (Job.runAll host transport s (input :: inputs)) t =
      match (Job.run host transport s input) t with
      | (.error e, u) => (([], some (input, e)), u)
      | (.ok w, u) =>
        match (Job.runAll host transport s inputs) u with
        | ((ws, failure), v) => ((w :: ws, failure), v) := by
  rw [Job.runAll, bind_apply]
  have result : ((Job.run host transport s input).run t) = (Job.run host transport s input) t := rfl
  rw [result]
  obtain ⟨r, u⟩ := (Job.run host transport s input) t
  cases r <;> rfl

/-! ## Where steps lead -/

def Within (R : σ → σ → Prop) (x : StateM σ α) : Prop :=
  ∀ t, R t (x t).2

theorem Within.lift {R : σ → σ → Prop} {x : StateM σ α} (within : Within R x) :
    Within R (liftM x : ExceptT ε (StateM σ) α) :=
  within

/-- Reading and making directories lead only where the relation tells, however often they are done. -/
structure Host.Keeps (host : Host (StateM σ)) (R : σ → σ → Prop) : Prop where
  refl : ∀ t, R t t
  trans : ∀ {t u v}, R t u → R u v → R t v
  readFile : ∀ p, Within R (host.readFile p)
  makeDirectory : ∀ p, Within R (host.makeDirectory p)
  isDirectory : ∀ p, Within R (host.isDirectory p)

namespace Host.Keeps

variable {host : Host (StateM σ)} {R : σ → σ → Prop}

theorem pure (keeps : host.Keeps R) (a : α) : Within R (Pure.pure a : StateM σ α) :=
  keeps.refl

theorem bind (keeps : host.Keeps R) {x : StateM σ α} {f : α → StateM σ β} (first : Within R x)
    (next : ∀ a, Within R (f a)) : Within R (x >>= f) :=
  fun t => keeps.trans (first t) (next _ _)

theorem tryBind (keeps : host.Keeps R) {x : ExceptT ε (StateM σ) α} {f : α → ExceptT ε (StateM σ) β}
    (first : Within R x) (next : ∀ a, Within R (f a)) :
    Within R (x >>= f : ExceptT ε (StateM σ) β) := by
  intro t
  have there := first t
  rw [run_bind]
  generalize x t = result at there
  obtain ⟨_ | a, u⟩ := result
  · exact there
  · exact keeps.trans there (next a u)

theorem readText (keeps : host.Keeps R) (p : Path) : Within R (host.readText p) := by
  apply keeps.bind (keeps.readFile p)
  intro read
  cases read with
  | error e => exact keeps.pure _
  | ok bytes =>
    dsimp only
    split <;> exact keeps.pure _

theorem makeAll (keeps : host.Keeps R) (ps : List Path) : Within R (host.makeAll ps) := by
  induction ps with
  | nil => exact keeps.pure _
  | cons p ps ih =>
    apply keeps.bind ih
    intro above
    cases above with
    | error e => exact keeps.pure _
    | ok _ =>
      apply keeps.bind (keeps.makeDirectory p)
      intro made
      split
      · apply keeps.bind (keeps.isDirectory p)
        intro there
        cases there <;> exact keeps.pure _
      · exact keeps.pure _

theorem makeFrom (keeps : host.Keeps R) (ps missing : List Path) :
    Within R (host.makeFrom ps missing) := by
  induction ps generalizing missing with
  | nil => exact keeps.makeAll missing
  | cons p ps ih =>
    apply keeps.bind (keeps.makeDirectory p)
    intro made
    split
    · exact keeps.makeAll missing
    · exact ih _
    · apply keeps.bind (keeps.isDirectory p)
      intro there
      cases there
      · exact keeps.pure _
      · exact keeps.makeAll missing
    · exact keeps.pure _

theorem makeDirectories (keeps : host.Keeps R) (p : Path) : Within R (host.makeDirectories p) :=
  keeps.makeFrom p.ancestors []

theorem makeRoom (keeps : host.Keeps R) (p : Path) : Within R (Job.makeRoom host p) := by
  unfold Job.makeRoom
  split
  · exact keeps.pure _
  · case h_2 directory _ =>
    split
    · exact keeps.pure _
    · apply keeps.tryBind (Within.lift (keeps.makeDirectories directory))
      intro made
      cases made <;> exact keeps.pure _

theorem load (keeps : host.Keeps R) (p : Path) : Within R (Profile.load host p) := by
  apply keeps.tryBind (Within.lift (keeps.readText p))
  intro read
  cases read <;> exact keeps.pure _

theorem document (keeps : host.Keeps R) (input : Input) : Within R (Job.document host input) := by
  cases input with
  | file path => exact keeps.load path
  | text s => exact keeps.pure _
  | sample => exact keeps.pure _

end Host.Keeps

end Vitae
