import Vitae.CommandLine.Run
import Vitae.Proofs.Files.Place
import Vitae.Proofs.Files.Steps

namespace Vitae

open BuildService

/-! ## Steps on a tree -/

theorem FileTree.keeps_host : FileTree.host.Keeps (Changes · · []) where
  refl := Changes.refl
  trans first second := first.trans second
  readFile _ := Changes.refl
  isDirectory _ := Changes.refl
  makeDirectory p t := by
    change Changes t (attempt (·.makeDirectory p) t).2 []
    unfold attempt
    split
    · case h_1 u made => exact makeDirectory_eq_ok made
    · exact .refl t

/-! ## Reading a profile -/

open FileTree

variable {t u : FileTree} {p : Path} {d : Document} {transport : Transport (StateM FileTree)}

def FileTree.Profiled (t : FileTree) (p : Path) (d : Document) : Prop :=
  ∃ content text, t.file? (t.place p) = some content ∧ String.fromUTF8? content = some text ∧
    Profile.parse (Profile.Format.detect (some p) text.toList) text.toList = .ok d

theorem FileTree.Profiled.unique {e : Document} (hd : t.Profiled p d) (he : t.Profiled p e) : d = e := by
  obtain ⟨content, text, found, decoded, parsed⟩ := hd
  obtain ⟨content', text', found', decoded', parsed'⟩ := he
  rw [found] at found'
  cases found'
  rw [decoded] at decoded'
  cases decoded'
  rw [parsed] at parsed'
  cases parsed'
  rfl

theorem host_writeFile_eq_ok {content : ByteArray} {r : Unit}
    (h : (FileTree.host.writeFile p content) t = (.ok r, u)) :
    Changes t u [t.place p] ∧ p.IsNamed ∧ u.readFile p = .ok content := by
  change attempt (·.writeFile p content) t = _ at h
  unfold attempt at h
  split at h
  · case h_1 written =>
    cases h
    obtain ⟨changes, read⟩ := writeFile_eq_ok written
    exact ⟨changes, isNamed_of_writeFile written, read⟩
  · cases h

/-! ## Jobs -/

end Vitae
