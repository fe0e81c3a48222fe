import Vitae.Proofs.Files.Disk

namespace Vitae

open BuildService

variable {σ ι α : Type}

structure Disk.NamesFiles (disk : Disk σ ι) : Prop where
  reads : ∀ p t content u, disk.host.readFile p t = (.ok content, u) → p.IsNamed
  writes : ∀ p content t u, disk.host.writeFile p content t = (.ok (), u) → p.IsNamed

namespace Disk

variable {disk : Disk σ ι} {transport : Transport (StateM σ)} {s : Settings} {p : Path} {t u : σ}

theorem isNamed_of_run (names : disk.NamesFiles) {w : Job.Written}
    (h : (Job.run disk.host transport s (.file p)) t = (.ok w, u)) :
    p.IsNamed ∧ (Job.output s (.file p)).IsNamed := by
  obtain ⟨d, loaded, room, bytes, v, read, -, -, written, -⟩ := run_eq_ok h
  obtain ⟨content, text, found, -⟩ := load_eq_ok read
  exact ⟨names.reads _ _ _ _ found, names.writes _ _ _ _ written⟩

end Disk

/-! ## Closed trees -/

abbrev ClosedTree : Type :=
  { t : FileTree // t.Closed }

namespace ClosedTree

def onTree (x : StateM FileTree α) (closed : Within (fun t u => t.Closed → u.Closed) x) : StateM ClosedTree α :=
  fun t => ((x t.1).1, ⟨(x t.1).2, closed t.1 t.2⟩)

theorem onTree_eq {x : StateM FileTree α} (closed : Within (fun t u => t.Closed → u.Closed) x) {a : α}
    {t u : ClosedTree} (h : onTree x closed t = (a, u)) : x t.1 = (a, u.1) := by
  cases h
  rfl

theorem closed_writeFile (p : Path) (content : ByteArray) :
    Within (fun t u => t.Closed → u.Closed) (FileTree.host.writeFile p content) := by
  intro t
  change t.Closed → (FileTree.attempt (·.writeFile p content) t).2.Closed
  unfold FileTree.attempt
  split
  · case h_1 written => exact (FileTree.writeFile_eq_ok written).1.closed
  · exact id

def host : Host (StateM ClosedTree) where
  readFile p := onTree (FileTree.host.readFile p) fun _ => id
  writeFile p content := onTree (FileTree.host.writeFile p content) (closed_writeFile p content)
  makeDirectory p := onTree (FileTree.host.makeDirectory p) fun t => (FileTree.keeps_host.makeDirectory p t).closed
  isDirectory p := onTree (FileTree.host.isDirectory p) fun _ => id

def disk : Disk ClosedTree Location where
  host := host
  entries t := FileTree.entry? t.1
  place t := t.1.place
  reads _ _ := rfl
  looks _ _ := rfl
  makes p t := FileTree.disk.makes p t.1
  refuses p content t e u h := FileTree.disk.refuses p content t.1 e u.1 (onTree_eq (closed_writeFile p content) h)
  writes p content t u h := FileTree.disk.writes p content t.1 u.1 (onTree_eq (closed_writeFile p content) h)

theorem namesFiles_disk : disk.NamesFiles where
  reads p t content u h :=
    have read : FileTree.host.readFile p t.1 = (.ok content, u.1) := onTree_eq (fun _ => id) h
    FileTree.isNamed_of_readFile t.2 (congrArg Prod.fst read)
  writes p content _ _ h := (host_writeFile_eq_ok (onTree_eq (closed_writeFile p content) h)).2.1

end ClosedTree

end Vitae
