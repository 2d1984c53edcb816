import BlueprintPackages.Loader
import BlueprintPackages.Proofs.Tree.Arrangement

/-!
# Loaded trees

A `Loaded` tree is built from sources, with any registry, and the system package that it was given
is a loaded tree in its turn. These are the trees that a program can get hold of: `bundled` is one,
and loading gives others (`loaded_of_load`, `loaded_of_loadSystem`).
-/

namespace BlueprintPackages

namespace PackageTree

inductive Loaded : PackageTree → Prop
  | built {registry : Registry} {system : SystemLink PackageTree} {stamp : Nat}
      {source : SourceTree} {t : PackageTree} (h : source.toTree registry system stamp = .ok t)
      (hsystem : ∀ tree, system = .external tree → Loaded tree) : Loaded t

variable {t tree : PackageTree}

theorem Loaded.arranged (h : t.Loaded) : t.Arranged := by
  cases h with
  | built h _ => exact arranged_of_toTree h

theorem Loaded.system (h : t.Loaded) (hlink : t.system = .external tree) : tree.Loaded := by
  cases h with
  | built h hsystem =>
      obtain ⟨-, rfl, -⟩ := SourceTree.toTree_eq_ok_iff.mp h
      exact hsystem tree hlink

theorem loaded_bundled : SystemPackage.bundled.Loaded :=
  .built SystemPackage.built_eq fun _ h => nomatch h

end PackageTree

namespace Loader

variable {l : Loader} {fs : FileSystem} {stamp : Nat} {path : String} {t : PackageTree}

/-- A load reads sources and builds their tree. -/
theorem loadWith_eq_ok_iff {system : SystemLink PackageTree} :
    l.loadWith system fs stamp path = .ok t ↔
      ∃ source, SourceTree.read fs path = .ok source ∧
        source.toTree l.registry system stamp = .ok t := by
  rw [loadWith]
  cases hread : SourceTree.read fs path with
  | error error => simp
  | ok source => cases htree : source.toTree l.registry system stamp <;> simp [htree]

/-- However a tree is loaded, it is built with the registry of the loader from the sources that are
read. -/
theorem exists_read_of_load
    (h : l.load fs stamp path = .ok t ∨ l.loadSystem fs stamp path = .ok t) :
    ∃ system source, SourceTree.read fs path = .ok source ∧
      source.toTree l.registry system stamp = .ok t := by
  rcases h with h | h
  · exact ⟨_, loadWith_eq_ok_iff.mp h⟩
  · exact ⟨_, loadWith_eq_ok_iff.mp h⟩

theorem exists_toTree_of_load
    (h : l.load fs stamp path = .ok t ∨ l.loadSystem fs stamp path = .ok t) :
    ∃ system source, SourceTree.toTree l.registry system stamp source = .ok t := by
  obtain ⟨system, source, -, htree⟩ := exists_read_of_load h
  exact ⟨system, source, htree⟩

theorem loaded_of_load (hsystem : ∀ tree, l.system = .external tree → tree.Loaded)
    (h : l.load fs stamp path = .ok t) : t.Loaded := by
  obtain ⟨source, -, htree⟩ := loadWith_eq_ok_iff.mp h
  exact .built htree hsystem

theorem loaded_of_loadSystem (h : l.loadSystem fs stamp path = .ok t) : t.Loaded := by
  obtain ⟨source, -, htree⟩ := loadWith_eq_ok_iff.mp h
  exact .built htree fun _ hown => nomatch hown

end Loader

end BlueprintPackages
