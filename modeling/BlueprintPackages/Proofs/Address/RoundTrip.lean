import BlueprintPackages.Proofs.Address.Outcome
import BlueprintPackages.Proofs.Tree.WellFormed

/-!
# From a package to its path and back

The path of a package is gathered on the way up to the root; the segments of an address are walked
on the way down. `walks_names` says that the second undoes the first, as long as each name on the
path is taken for a name and none is taken by a later package beside it. So a blueprint or an
enumeration is found, from wherever in its tree, by the path of its package and its own name
(`resolves_by_path`).
-/

namespace BlueprintPackages

namespace Package

variable {start p q : Package} {t : PackageTree}

/-! ## Names on the way up -/

theorem head?_names (h : p.tree.Arranged) : p.names.head? = some p.root.name := by
  rw [names, List.head?_reverse, List.getLast?_map, h.getLast?_ancestors, Option.map_some]

/-! ## Segments on the way down -/

theorem Walks.append {current middle last : Option Package} {before after : List String}
    (h : start.Walks current before middle) (h' : start.Walks middle after last) :
    start.Walks current (before ++ after) last := by
  induction h with
  | nil => exact h'
  | cons hmove _ ih => exact .cons hmove (ih h')

/-- The first name of a tree leads to its root: as a name, or as `system` if the tree is its own
system package. -/
theorem walks_root (hs : start.tree = t) (hne : t.root.name ≠ "")
    (hown : t.root.name = systemName → t.system = .own) :
    start.Walks none [t.root.name] (some t.root) := by
  subst hs
  refine .cons ?_ .nil
  by_cases hsystem : start.root.name = systemName
  · have hroot : start.tree.root.name = systemName := hsystem
    rw [hroot]
    refine .system ?_
    rw [system?, hown hroot]
    rfl
  · exact .first ⟨hne, hsystem⟩ rfl

/-- The names on the path of a package lead to it, if the first of them leads to the root and every
further package is the one filed under its name. -/
theorem walks_names (h : t.Arranged) (hroot : start.Walks none [t.root.name] (some t.root))
    (hp : p.tree = t) (hnames : ∀ name ∈ p.names.tail, Segment.IsName name)
    (hshadow : ∀ q ∈ p.ancestors, ∀ r, q.parent? = some r → r.subpackage q.name = .ok q) :
    start.Walks none p.names (some p) := by
  have hdown : t.root.Descends p.names.tail p := descends_names h hp hshadow
  have hhead : p.names.head? = some t.root.name := by
    rw [head?_names (hp ▸ h), root, hp]
  have hsplit : p.names = [t.root.name] ++ p.names.tail := by
    rw [List.singleton_append, List.cons_head?_tail hhead]
  rw [hsplit]
  exact hroot.append (hdown.walks hnames)

/-- The path of a package, a slash and a name designate that name in that package. -/
theorem designates_path (h : p.tree.Arranged)
    (hnames : ∀ name ∈ p.names, name ≠ "" ∧ '/' ∉ name.toList ∧ ':' ∉ name.toList)
    (hwalk : start.Walks none p.names (some p)) {name : String} (hslash : '/' ∉ name.toList)
    (hcolon : ':' ∉ name.toList) : start.Designates (p.path ++ "/" ++ name) p name := by
  have hpath : ':' ∉ p.path.toList :=
    Text.not_mem_intercalate (by decide) fun part hpart => (hnames part hpart).2.2
  have haddress : ':' ∉ (p.path ++ "/" ++ name).toList := by
    simp [hpath, hcolon]
  have hsplit : Address.SplitsInto (p.path ++ "/" ++ name) p.names name :=
    ⟨rfl, names_ne_nil h, fun segment hsegment => (hnames segment hsegment).2.1, hslash⟩
  exact .there (.plain (.inl haddress)) hsplit hwalk

end Package

/-! ## There and back -/

namespace Loader

variable {l : Loader} {fs : FileSystem} {stamp : Nat} {path : String} {t : PackageTree}

/-- Of any loaded tree built with the constructors of this library: a blueprint or enumeration of
the package `p` is found from every package by the path of `p`, a slash and its name. The names on
the path must be neither empty nor cut by a separator, and no name but the root's may be `system`;
the root's may be if the tree is its own system package. No package on the path may have given up
its name to a later one beside it. -/
theorem resolves_by_path
    (hload : l.load fs stamp path = .ok t ∨ l.loadSystem fs stamp path = .ok t)
    (hstandard : l.registry.Standard) {p : Package} (hp : p.tree = t)
    (hnames : ∀ name ∈ p.names, name ≠ "" ∧ '/' ∉ name.toList ∧ ':' ∉ name.toList)
    (hbelow : ∀ name ∈ p.names.tail, name ≠ systemName)
    (hroot : p.names.head? = some systemName → l.loadSystem fs stamp path = .ok t)
    (hshadow : ∀ q ∈ p.ancestors, ∀ r, q.parent? = some r → r.subpackage q.name = .ok q) :
    (∀ b ∈ p.blueprints, '/' ∉ b.name.toList → ':' ∉ b.name.toList →
      ∀ s : Package, s.tree = t → s.blueprintAt (p.path ++ "/" ++ b.name) = .ok ⟨p, b⟩) ∧
    ∀ e ∈ p.enumerations, '/' ∉ e.name.toList → ':' ∉ e.name.toList →
      ∀ s : Package, s.tree = t → s.enumerationAt (p.path ++ "/" ++ e.name) = .ok ⟨p, e⟩ := by
  obtain ⟨system, source, htree⟩ := exists_toTree_of_load hload
  have harranged : t.Arranged := PackageTree.arranged_of_toTree htree
  have hfiled : t.Filed := PackageTree.filed_of_toTree hstandard htree
  subst hp
  have hhead : p.names.head? = some p.tree.root.name := Package.head?_names harranged
  have hne : p.tree.root.name ≠ "" := (hnames _ (List.mem_of_head? hhead)).1
  have hown : p.tree.root.name = systemName → p.tree.system = .own := by
    intro hname
    obtain ⟨_, -, htree'⟩ := loadWith_eq_ok_iff.mp (hroot (hname ▸ hhead))
    exact (SourceTree.toTree_eq_ok_iff.mp htree').2.1
  have hbelow' : ∀ name ∈ p.names.tail, Segment.IsName name := fun name hname =>
    ⟨(hnames name (List.mem_of_mem_tail hname)).1, hbelow name hname⟩
  -- the first name is the root's, wherever the lookup starts, and the others lead down from there
  have hwalk : ∀ s : Package, s.tree = p.tree → s.Walks none p.names (some p) := fun s hs =>
    Package.walks_names harranged (Package.walks_root hs hne hown) rfl hbelow' hshadow
  have hdesignates : ∀ s : Package, s.tree = p.tree → ∀ name : String, '/' ∉ name.toList →
      ':' ∉ name.toList → s.Designates (p.path ++ "/" ++ name) p name :=
    fun s hs name hslash hcolon =>
      Package.designates_path harranged hnames (hwalk s hs) hslash hcolon
  constructor
  · intro b hb hslash hcolon s hs
    obtain ⟨name, hget⟩ := OrderedMap.mem_values_iff.mp hb
    obtain ⟨rfl, -⟩ := hfiled.blueprint (p.nodes_getElem? rfl) hget
    exact Package.blueprintAt_eq_ok_iff.mpr ⟨b.name, hdesignates s hs _ hslash hcolon, hget⟩
  · intro e he hslash hcolon s hs
    obtain ⟨name, hget⟩ := OrderedMap.mem_values_iff.mp he
    obtain ⟨rfl, -⟩ := hfiled.enumeration (p.nodes_getElem? rfl) hget
    exact Package.enumerationAt_eq_ok_iff.mpr ⟨e.name, hdesignates s hs _ hslash hcolon, hget⟩

/-- A directory `marine` with a directory `hull`, in which there is one definition. -/
def marineFiles : FileSystem where
  root := .directory [("marine", .directory [("hull", .directory [("plate.json", .file
    "\x7b\"type\": \"system/SIMOS/Blueprint\", \"name\": \"Plate\"\x7d".toUTF8)])])]
  workingDirectory := []

/-- The one blueprint in these files is found by its path from the root. -/
theorem resolves_by_path_marine :
    ∃ t p b, standard.load marineFiles 1 "marine" = .ok t ∧ p.tree = t ∧
      p.path ++ "/" ++ b.name = "marine/hull/Plate" ∧
      t.root.blueprintAt (p.path ++ "/" ++ b.name) = .ok ⟨p, b⟩ := by
  have hread : (standard.load marineFiles 1 "marine").toOption.map
      (fun t => (t.package? 1).map fun p => (p.names, p.blueprints.map Blueprint.name)) =
        some (some (["marine", "hull"], ["Plate"])) := by decide +kernel
  have hfiled : (standard.load marineFiles 1 "marine").toOption.map
      (fun t => (t.package? 1).map fun p => p.ancestors.all fun q => q.parent?.all fun r =>
        r.node.subpackages.get? q.name == some q.id.val) = some (some true) := by decide +kernel
  cases hload : standard.load marineFiles 1 "marine" with
  | error error =>
      rw [hload] at hread
      exact nomatch hread
  | ok t =>
      rw [hload] at hread hfiled
      obtain ⟨p, hpackage, hfacts⟩ := Option.map_eq_some_iff.mp (Option.some.inj hread)
      obtain ⟨hnames, hblueprints⟩ := Prod.mk.inj hfacts
      obtain ⟨b, hb, hname⟩ := List.map_eq_singleton_iff.mp hblueprints
      obtain ⟨hp, -⟩ := PackageTree.package?_eq_some_iff.mp hpackage
      have hshadow : ∀ q ∈ p.ancestors, ∀ r, q.parent? = some r → r.subpackage q.name = .ok q := by
        intro q hq r hparent
        have hall := Option.some.inj hfiled
        simp only [hpackage, Option.map_some, Option.some.injEq, List.all_eq_true] at hall
        have hget := hall q hq
        rw [hparent, Option.all_some, beq_iff_eq] at hget
        exact Package.subpackage_eq_ok_iff.mpr
          ⟨(Package.parent?_eq_some_iff.mp hparent).1.symm, hget⟩
      have hfound := (resolves_by_path (.inl hload) Registry.standard_simos hp
        (by rw [hnames]; decide) (by rw [hnames]; decide)
        (fun hhead => absurd hhead (by rw [hnames]; decide)) hshadow).1 b
          (hb ▸ List.mem_singleton_self b) (by rw [hname]; decide) (by rw [hname]; decide)
      refine ⟨t, p, b, rfl, hp, ?_, hfound t.root rfl⟩
      rw [Package.path, hnames, hname]
      decide

end Loader

end BlueprintPackages
