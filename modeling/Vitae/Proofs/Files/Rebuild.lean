import Vitae.Watch

namespace Vitae

open BuildService

variable {m : Type → Type} [Monad m] [LawfulMonad m]

/-- A step whose error is passed on in another form and whose result only tells that it is done. -/
theorem bind_eq_adapt {ε ε' α : Type} (wrap : ε → ε') (x : m (Except ε Unit)) (k : ExceptT ε' m α)
    {next : Except ε Unit → ExceptT ε' m α} (failed : ∀ e, next (.error e) = throw (wrap e))
    (done : next (.ok ()) = k) :
    (liftM x >>= next : ExceptT ε' m α) = (do ExceptT.adapt wrap (.mk x); k) := by
  apply ExceptT.ext
  have lifted : (liftM x : ExceptT ε' m (Except ε Unit)).run = Except.ok <$> x := rfl
  have adapted : (ExceptT.adapt wrap (.mk x)).run = Except.mapError wrap <$> x := rfl
  rw [ExceptT.run_bind, ExceptT.run_bind, lifted, adapted, bind_map_left, bind_map_left]
  congr 1
  funext result
  cases result with
  | error e => exact congrArg ExceptT.run (failed e)
  | ok _ => exact congrArg ExceptT.run done

theorem Job.makeRoom_eq (host : Host m) (path : Path) :
    Job.makeRoom host path =
      match path.parent?.filter (!·.chars.isEmpty) with
      | some above => ExceptT.adapt .directory (.mk (host.makeDirectories above))
      | none => return () := by
  unfold Job.makeRoom
  cases path.parent? with
  | none => rfl
  | some above =>
    cases named : above.chars.isEmpty with
    | true => simp only [Option.filter_some, named, if_true, Bool.not_true, Bool.false_eq_true, if_false]
    | false =>
      simp only [Option.filter_some, named, Bool.not_false, Bool.false_eq_true, if_false, if_true]
      exact (bind_eq_adapt Error.directory (host.makeDirectories above) (pure ()) (fun _ => rfl) rfl).trans
        (bind_pure _)

theorem Job.writeOutput_eq (host : Host m) (transport : Transport m) (s : Settings) (path : Path)
    (source : Tex) :
    Job.writeOutput host transport s path source =
      if s.texOnly then do
        ExceptT.adapt (.write path) (.mk (host.writeFile path (String.ofList source).toUTF8))
        return (String.ofList source).toUTF8.size
      else do
        let pdf ← ExceptT.adapt .build (buildTo host transport s.endpoint source path)
        return pdf.size := by
  unfold Job.writeOutput
  split
  · exact bind_eq_adapt (Error.write path) _ _ (fun _ => rfl) rfl
  · rfl

theorem Watch.rebuild_eq (host : Host m) (transport : Transport m) (s : Settings) (path : Path) :
    Watch.rebuild host transport s path = Job.Written.path <$> Job.run host transport s (.file path) := by
  unfold Watch.rebuild Job.run
  simp only [map_bind, map_pure]
  congr 1
  funext d
  have output : Job.output s (.file path) = outputPath (some path) s.output s.multiple s.extension := rfl
  simp only [output, Job.makeRoom_eq, Job.writeOutput_eq]
  cases Option.filter _ _ <;> cases s.texOnly <;>
    simp only [bind_assoc, pure_bind, Bool.false_eq_true, if_false, if_true]

end Vitae
