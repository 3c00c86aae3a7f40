import Mathlib.Data.List.Basic
import LineLedger.Walk
import LineLedger.Proofs.Pending.Remade

set_option autoImplicit false

namespace LineLedger.Disk

variable {d e : Disk} {root : Path} {extensions : List String} {paths : List Path}

theorem Distinct.sublist {fewer : List Path} (distinct : d.Distinct paths)
    (some : fewer.Sublist paths) : d.Distinct fewer where
  routes := distinct.routes.sublist some
  apart := distinct.apart.sublist some

theorem Distinct.perm {others : List Path} (distinct : d.Distinct paths)
    (perm : paths.Perm others) : d.Distinct others where
  routes := distinct.routes.perm perm fun apart same => apart same.symm
  apart := distinct.apart.perm perm fun apart name there here => apart name here there

theorem SameShape.isFolder_eq (shape : SameShape d e) (p : Path) : e.isFolder p = d.isFolder p := by
  rw [isFolder, isFolder, find, find, shape.locate_eq]
  cases d.locate p with
  | error fault => rfl
  | ok name =>
    have present := shape.present name
    have folders := shape.folders name
    simp only [bind, Except.bind]
    rcases left : e.node? name with _ | _ | _ <;> rcases right : d.node? name with _ | _ | _ <;>
      simp_all

variable [Walker]

-- The sort is a merge, which the kernel does not evaluate.
theorem collectFiles_of_found (folder : d.isFolder root = true)
    (found : (d.regularFiles root).filter (accepts extensions) = paths)
    (sorted : paths.Pairwise fun p q => (!q.before p) = true) :
    d.collectFiles root extensions = .ok paths := by
  rw [collectFiles, requireFolder, folder, found, List.mergeSort_of_pairwise sorted]
  rfl

theorem mem_collectFiles (walk : d.collectFiles root extensions = .ok paths) {path : Path} :
    path ∈ paths ↔ path ∈ d.regularFiles root ∧ accepts extensions path = true := by
  obtain ⟨_, _, found⟩ := bind_eq_ok.1 walk
  cases found
  rw [List.mem_mergeSort, List.mem_filter]

-- What walks are known for. They come to each file once, and the only texts they look at are those
-- of the files that hold rules.
structure Walks (holdsRules : Disk → FullName → Prop) : Prop where
  distinct : ∀ (d : Disk) (root : Path), d.Distinct (d.regularFiles root)
  stable : ∀ {d e : Disk}, SameShape d e → e.settings = d.settings →
    (∀ name, holdsRules d name → e.node? name = d.node? name) →
    ∀ root : Path, e.regularFiles root = d.regularFiles root

namespace Walks

variable {holdsRules : Disk → FullName → Prop} (walks : Walks holdsRules)

include walks

theorem distinct_collectFiles (walk : d.collectFiles root extensions = .ok paths) :
    d.Distinct paths := by
  obtain ⟨_, _, found⟩ := bind_eq_ok.1 walk
  cases found
  exact ((walks.distinct d root).sublist List.filter_sublist).perm (List.mergeSort_perm ..).symm

theorem collectFiles_eq {make : String → String} (remade : d.Remade paths make e)
    (free : ∀ path ∈ paths, ∀ name, d.Names path name → ¬ holdsRules d name) (root : Path)
    (extensions : List String) :
    e.collectFiles root extensions = d.collectFiles root extensions := by
  have rules (name : FullName) (held : holdsRules d name) : e.node? name = d.node? name :=
    remade.kept name fun path listed text found => free path listed name ⟨_, _, found⟩ held
  have files := walks.stable remade.shape remade.settings rules root
  rw [collectFiles, collectFiles, requireFolder, requireFolder, remade.shape.isFolder_eq, files]

end Walks

end LineLedger.Disk
