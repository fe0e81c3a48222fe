import Vitae.Proofs.Files.Job

namespace Vitae.CommandLine

open BuildService

/-! ## Calls that do jobs -/

variable {t u : FileTree} {transport : Transport (StateM FileTree)} {i : Invocation} {outcome : Outcome}

def Invocation.MakesFiles (i : Invocation) : Prop :=
  i.listLayouts = false ∧ i.watch = false ∧ i.seed = false

theorem run_runJobs {σ : Type} (host : Host (StateM σ)) (transport : Transport (StateM σ)) (s : Settings)
    (inputs : List Input) (t : σ) :
    (runJobs host transport s inputs) t =
      match (Job.runAll host transport s inputs) t with
      | ((ws, none), u) => (⟨0, String.join (ws.map writtenLine), ""⟩, u)
      | ((ws, some (input, e)), u) => (failed (String.join (ws.map writtenLine)) (jobMessage input e), u) := by
  rw [runJobs, bind_apply]
  obtain ⟨⟨ws, failure⟩, u⟩ := (Job.runAll host transport s inputs) t
  cases failure <;> rfl

theorem planned_of_run {σ : Type} {host : Host (StateM σ)} {transport : Transport (StateM σ)}
    {standardInput : StateM σ (Except String ByteArray)} {watch : Settings → List Path → StateM σ Outcome}
    {endpoint : Option String} {arguments : List String} {t u : σ}
    (parsed : Invocation.ofArguments arguments = .ok i)
    (ran : (run host transport standardInput watch endpoint arguments) t = (outcome, u)) :
    (∃ message, outcome = failed "" message ∧ u = t) ∨
      ∃ plan, Plan.ofInvocation { i with endpoint := i.endpoint <|> endpoint } = .ok plan ∧
        (plan.run host transport standardInput watch) t = (outcome, u) := by
  rw [run, parsed] at ran
  dsimp only at ran
  cases planned : Plan.ofInvocation { i with endpoint := i.endpoint <|> endpoint } with
  | error message =>
    rw [planned] at ran
    cases ran
    exact .inl ⟨message, rfl, rfl⟩
  | ok plan =>
    rw [planned] at ran
    exact .inr ⟨plan, rfl, ran⟩

theorem ofInvocation_eq_ok {plan : Plan} (files : i.MakesFiles) (h : Plan.ofInvocation i = .ok plan) :
    ∃ layout, Layout.ofId i.layout = .ok layout ∧
      (i.inputs = [] ∨ plan = .jobs (i.settings layout) (i.inputs.map .file)) := by
  obtain ⟨list, watch, seed⟩ := files
  unfold Plan.ofInvocation at h
  simp only [list, watch, seed, Bool.and_false, Bool.false_eq_true, if_false] at h
  split at h
  · cases h
  · split at h
    · cases h
    · case h_2 layout known =>
      refine ⟨layout, known, ?_⟩
      cases inputs : i.inputs with
      | nil => exact .inl rfl
      | cons p ps =>
        rw [inputs] at h
        cases h
        exact .inr rfl

section

variable {standardInput : StateM FileTree (Except String ByteArray)}
  {watch : Settings → List Path → StateM FileTree Outcome} {endpoint : Option String}
  {arguments : List String}

end

end Vitae.CommandLine
