import BlueprintPackages.Proofs.Tree.Shadowing
import Mathlib.Logic.Function.Iterate

/-!
# Climbing ends at the root

To climb is to ask for the parent of the parent and so on, and nothing in the nodes of a tree says
that this comes to an end. It does where parents come before their subpackages: every step up leads
to a smaller number, so no package is met twice, and the last one met is the one that has no parent.
That is the root, so the root by its number and the root as the end of the climb are one package
(`ClimbsToRoot`). The list of ancestors, whose length is bounded beforehand, leaves nothing of the
climb out.

With every step up a path loses its last name (`path_of_parent?_eq_some`), which is how paths grow
on the way down, also that of a package which has lost its name to a later one (`climbs_to_root`).
-/

namespace BlueprintPackages

namespace Package

variable {p q : Package}

/-- One step up from where a climb has come, if it has not come to an end. -/
def stepUp (current : Option Package) : Option Package := current.bind parent?

/-- Climbing from a package leads to the root of its tree, and no further. -/
structure ClimbsToRoot (p : Package) : Prop where
  /-- The ancestors are what step after step up leads to, and behind the last of them there is
  nothing. -/
  ancestors : ∀ n : Nat, p.ancestors[n]? = stepUp^[n] (some p)
  decreasing : p.ancestors.Pairwise fun q r => r.id.val < q.id.val
  /-- The root is the last of them and none of the others. -/
  root_last : ∃ below, p.ancestors = below ++ [p.root] ∧ p.root ∉ below
  root_root : p.root.root = p.root
  /-- What has no parent is what has the root's number. -/
  isRoot_iff : p.isRoot = true ↔ p.id.val = rootId

/-! ## The way up -/

theorem id_le_of_mem_ancestors {t : PackageTree} (h : t.Arranged) (hp : p.tree = t)
    (hq : q ∈ p.ancestors) : q.id.val ≤ p.id.val := by
  revert hq
  refine h.climb_induction (motive := fun p => q ∈ p.ancestors → q.id.val ≤ p.id.val) ?_ ?_ p hp
  · rw [PackageTree.Arranged.ancestors_of_parent?_eq_none h.parent?_root, List.mem_singleton]
    rintro rfl
    exact Nat.le_refl _
  · intro p r hp hparent ih
    rw [PackageTree.Arranged.ancestors_of_parent?_eq_some (hp ▸ h) hparent, List.mem_cons]
    rintro (rfl | hq)
    · exact Nat.le_refl _
    · have hlt := (PackageTree.Arranged.parent?_lt (hp ▸ h) hparent).2
      exact (ih hq).trans hlt.le

end Package

namespace PackageTree.Arranged

variable {t : PackageTree} {p : Package}

/-- The count that climbing is given is never what ends it. -/
theorem ancestors_getElem? (h : t.Arranged) (hp : p.tree = t) (n : Nat) :
    p.ancestors[n]? = Package.stepUp^[n] (some p) := by
  revert n
  refine h.climb_induction
    (motive := fun p => ∀ n : Nat, p.ancestors[n]? = Package.stepUp^[n] (some p)) ?_ ?_ p hp
  · intro n
    rw [ancestors_of_parent?_eq_none h.parent?_root]
    cases n with
    | zero => rfl
    | succ n =>
        -- the first step up from the root leads nowhere, and from nowhere no step leads on
        have hstep : Package.stepUp (some t.root) = none := h.parent?_root
        have hnone : Package.stepUp none = none := rfl
        rw [Function.iterate_succ_apply, hstep, Function.iterate_fixed hnone]
        rfl
  · intro p q hp hparent ih n
    rw [ancestors_of_parent?_eq_some (hp ▸ h) hparent]
    cases n with
    | zero => rfl
    | succ n =>
        have hstep : Package.stepUp (some p) = some q := hparent
        rw [List.getElem?_cons_succ, ih, Function.iterate_succ_apply, hstep]

theorem pairwise_ancestors (h : t.Arranged) (hp : p.tree = t) :
    p.ancestors.Pairwise fun q r => r.id.val < q.id.val := by
  refine h.climb_induction
    (motive := fun p => p.ancestors.Pairwise fun q r => r.id.val < q.id.val) ?_ ?_ p hp
  · rw [ancestors_of_parent?_eq_none h.parent?_root]
    exact List.pairwise_singleton _ _
  · intro p q hp hparent ih
    obtain ⟨htree, hlt⟩ := parent?_lt (hp ▸ h) hparent
    rw [ancestors_of_parent?_eq_some (hp ▸ h) hparent, List.pairwise_cons]
    refine ⟨fun r hr => ?_, ih⟩
    have hle := Package.id_le_of_mem_ancestors h (htree.trans hp) hr
    exact Nat.lt_of_le_of_lt hle hlt

theorem isRoot_iff (h : t.Arranged) (hp : p.tree = t) : p.isRoot = true ↔ p.id.val = rootId := by
  rw [Package.isRoot, Option.isNone_iff_eq_none, h.parent_eq_none_iff (p.nodes_getElem? hp)]

/-- The root stands at the end, and numbers decrease, so it stands nowhere else. -/
theorem exists_ancestors_eq_concat (h : t.Arranged) (hp : p.tree = t) :
    ∃ below, p.ancestors = below ++ [p.root] ∧ p.root ∉ below := by
  subst hp
  have hlast : p.root ∈ p.ancestors.getLast? := h.getLast?_ancestors
  refine ⟨p.ancestors.dropLast, (List.dropLast_append_getLast? _ hlast).symm, fun hmem => ?_⟩
  have hdecreasing := h.pairwise_ancestors rfl
  rw [← List.dropLast_append_getLast? _ hlast, List.pairwise_append] at hdecreasing
  exact Nat.lt_irrefl _ (hdecreasing.2.2 p.root hmem p.root (List.mem_singleton_self _))

theorem climbsToRoot (h : t.Arranged) (hp : p.tree = t) : p.ClimbsToRoot where
  ancestors := h.ancestors_getElem? hp
  decreasing := h.pairwise_ancestors hp
  root_last := h.exists_ancestors_eq_concat hp
  root_root := rfl
  isRoot_iff := h.isRoot_iff hp

end PackageTree.Arranged

namespace Package

variable {p q : Package}

/-! ## Paths -/

theorem path_of_parent?_eq_none (hparent : p.parent? = none) : p.path = p.name := by
  rw [path, names_of_parent?_eq_none hparent, String.intercalate_singleton]

theorem path_of_parent?_eq_some (h : p.tree.Arranged) (hparent : p.parent? = some q) :
    p.path = q.path ++ "/" ++ p.name := by
  have hq : q.tree.Arranged := (h.parent?_lt hparent).1 ▸ h
  rw [path, names_of_parent?_eq_some h hparent,
    String.intercalate_append_of_ne_nil (names_ne_nil hq) (List.cons_ne_nil _ _),
    String.intercalate_singleton, path]

/-! ## Every built tree -/

/-- In every tree that is built, with whatever constructors, and from every package of it, climbing
ends at the root. A path has one name for each ancestor, from the root down. It is the name of the
root, or the path of the parent, a slash and the name of the package. And what is found in a package
under a name has this package as its parent, and its path is that of the package, a slash and the
name. -/
theorem climbs_to_root {registry : Registry} {system : SystemLink PackageTree} {stamp : Nat}
    {source : SourceTree} {t : PackageTree} (h : source.toTree registry system stamp = .ok t)
    (hp : p.tree = t) :
    p.ClimbsToRoot ∧ p.names = p.ancestors.reverse.map name ∧
      (p = p.root → p.path = p.root.name) ∧
      (p ≠ p.root → ∃ q, p.parent? = some q ∧ p.path = q.path ++ "/" ++ p.name) ∧
      ∀ (name : String) (q : Package), p.subpackage name = .ok q →
        q.parent? = some p ∧ q.path = p.path ++ "/" ++ name := by
  subst hp
  have harranged : p.tree.Arranged := PackageTree.arranged_of_toTree h
  refine ⟨harranged.climbsToRoot rfl, List.map_reverse.symm, ?_, ?_, ?_⟩
  · intro hroot
    rw [path_of_parent?_eq_none (harranged.parent?_eq_none_iff.mpr hroot), ← hroot]
  · intro hne
    obtain ⟨q, hparent⟩ := harranged.exists_parent?_of_ne_root rfl hne
    exact ⟨q, hparent, path_of_parent?_eq_some harranged hparent⟩
  · intro name q hsub
    obtain ⟨htree, -, hparent, rfl⟩ := harranged.of_subpackage_eq_ok hsub
    exact ⟨hparent, path_of_parent?_eq_some (htree ▸ harranged) hparent⟩

/-- A package with two subpackages of one name, the first of which has one of its own. -/
def convoySource : SourceTree :=
  .node (SystemPackage.sourceOf "convoy" [])
    [.node (SystemPackage.sourceOf "hull" []) [.node (SystemPackage.sourceOf "deck" []) []],
      .node (SystemPackage.sourceOf "hull" []) []]

theorem exists_toTree_convoySource :
    ∃ (t : PackageTree) (hull deck : Package), convoySource.toTree .simos .absent 1 = .ok t ∧
      hull.tree = t ∧ deck.tree = t ∧ hull.parent? = some t.root ∧ deck.parent? = some hull ∧
      t.root.name = "convoy" ∧ hull.name = "hull" ∧ deck.name = "deck" ∧ hull.Shadowed := by
  obtain ⟨t, htree⟩ : ∃ t, convoySource.toTree .simos .absent 1 = .ok t := ⟨_, rfl⟩
  have hnodes : t.nodes.map (fun node => (node.name, node.parent)) =
      [("convoy", none), ("hull", some 0), ("deck", some 1), ("hull", some 0)] := by
    obtain rfl := Except.ok.inj htree
    decide
  have hpackage : ∀ i name parent, (t.nodes.map fun node => (node.name, node.parent))[i]? =
      some (name, some parent) → ∃ p : Package, p.tree = t ∧ p.id.val = i ∧ p.name = name ∧
        ∀ q : Package, q.tree = t → q.id.val = parent → p.parent? = some q := by
    intro i name parent hi
    rw [List.getElem?_map, Option.map_eq_some_iff] at hi
    obtain ⟨node, hnode, heq⟩ := hi
    obtain ⟨rfl, hparent⟩ := Prod.mk.inj heq
    obtain ⟨p, -, hp, hid, rfl⟩ := PackageTree.exists_package_of_node hnode
    refine ⟨p, hp, hid, rfl, ?_⟩
    rintro q hq rfl
    exact parent?_eq_some_iff.mpr ⟨hq.trans hp.symm, hparent⟩
  have hroot : t.root.name = "convoy" := (Prod.mk.inj (List.cons.inj hnodes).1).1
  rw [hnodes] at hpackage
  obtain ⟨hull, hhull, hhullId, hhullName, hhullParent⟩ := hpackage 1 _ _ rfl
  obtain ⟨deck, hdeck, -, hdeckName, hdeckParent⟩ := hpackage 2 _ _ rfl
  obtain ⟨later, hlater, hlaterId, hlaterName, hlaterParent⟩ := hpackage 3 _ _ rfl
  have hup : hull.parent? = some t.root := hhullParent t.root rfl rfl
  have hbeside : later.parent? = some t.root := hlaterParent t.root rfl rfl
  have hshadowed : hull.Shadowed :=
    ⟨later, hlater.trans hhull.symm, hbeside.trans hup.symm, hlaterName.trans hhullName.symm,
      by omega⟩
  exact ⟨t, hull, deck, htree, hhull, hdeck, hup, hdeckParent hull hhull hhullId, hroot,
    hhullName, hdeckName, hshadowed⟩

/-- No lookup by name leads to the first `hull` or to what is in it, and still the way up from there
goes through it to the root. -/
theorem climbs_to_root_convoy :
    ∃ (t : PackageTree) (hull deck : Package), convoySource.toTree .simos .absent 1 = .ok t ∧
      hull.tree = t ∧ deck.tree = t ∧ hull.Shadowed ∧ deck.parent? = some hull ∧
      deck.ClimbsToRoot ∧ deck.path = "convoy/hull/deck" := by
  obtain ⟨t, hull, deck, htree, hhull, hdeck, hhullParent, hdeckParent, hrootName, hhullName,
    hdeckName, hshadowed⟩ := exists_toTree_convoySource
  have harranged : t.Arranged := PackageTree.arranged_of_toTree htree
  have hne : ∀ p q : Package, p.tree = t → p.parent? = some q → p ≠ p.root := by
    intro p q hp hparent hself
    exact nomatch hparent.symm.trans
      ((PackageTree.Arranged.parent?_eq_none_iff (hp ▸ harranged)).mpr hself)
  obtain ⟨hclimbs, -, -, hdeckUp, -⟩ := climbs_to_root htree hdeck
  obtain ⟨-, -, -, hhullUp, -⟩ := climbs_to_root htree hhull
  obtain ⟨-, -, hrootPath, -, -⟩ := climbs_to_root htree (rfl : t.root.tree = t)
  obtain ⟨q, hq, hdeckPath⟩ := hdeckUp (hne deck hull hdeck hdeckParent)
  obtain rfl : hull = q := Option.some.inj (hdeckParent.symm.trans hq)
  obtain ⟨r, hr, hhullPath⟩ := hhullUp (hne hull t.root hhull hhullParent)
  obtain rfl : t.root = r := Option.some.inj (hhullParent.symm.trans hr)
  refine ⟨t, hull, deck, htree, hhull, hdeck, hshadowed, hdeckParent, hclimbs, ?_⟩
  have hroot : t.root.path = "convoy" := (hrootPath rfl).trans hrootName
  rw [hdeckPath, hhullPath, hroot, hhullName, hdeckName]
  rfl

end Package

end BlueprintPackages
