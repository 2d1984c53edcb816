import BlueprintPackages.Proofs.Source.Reading
import BlueprintPackages.Proofs.Tree.Loaded
import BlueprintPackages.Proofs.Tree.WellFormed

/-!
# Packages that share a name

Two directories beside each other never have one name, but the packages in them can: the metadata of
each may name it as it likes. Then the later of the two is filed under the name, and the earlier is
`Shadowed`. It stays in the tree, with all that is below it, but no lookup by name leads there.

What a parent has under the name of one of its packages is the last of those that share the name
(`exists_last_of_name`). So a package is found again by its own name just if it is not shadowed
(`subpackage_name_eq_self_iff`), and names lead down to it from the root just if no package on the
way is (`descends_iff`). That is how it is in every loaded tree (`found_unless_shadowed`); where two
directories are given one name, a package is lost to lookups (`namesakes_lose_package`).
-/

namespace BlueprintPackages

namespace Package

/-- A later package beside this one has its name. -/
def Shadowed (p : Package) : Prop :=
  ∃ q : Package, q.tree = p.tree ∧ q.parent? = p.parent? ∧ q.name = p.name ∧ p.id.val < q.id.val

section Built

variable {registry : Registry} {system : SystemLink PackageTree} {stamp : Nat}
  {source : SourceTree} {t : PackageTree} (h : source.toTree registry system stamp = .ok t)
  {p r : Package}

include h

/-! ## The last of a name -/

/-- A package stands at its place among the numbered subpackages of its parent. -/
theorem exists_index_of_parent? (hp : p.tree = t) (hparent : p.parent? = some r) {above : Place}
    {up : SourceTree} (habove : source.HasPackage r.id.val above up) :
    ∃ k : Nat, (source.subpackageNumbers above up)[k]? = some (p.name, p.id.val) := by
  obtain ⟨place, sub, hplace, hnode⟩ := SourceTree.exists_hasNode_of_node h (p.nodes_getElem? hp)
  obtain ⟨above', k, up', rfl, habove'⟩ := exists_place_of_parent? h hp hparent hplace
  obtain ⟨rfl, rfl⟩ := habove'.unique habove
  have hchild : up'.children[k]? = some sub := by
    rw [← SourceTree.at?_concat habove.tree k]
    exact hplace.tree
  have hname : p.name = sub.source.name := hnode.builds.name
  refine ⟨k, ?_⟩
  rw [SourceTree.subpackageNumbers_getElem?, hchild, Option.map_some, ← hname, hplace.number_eq]

/-- Under the name of a package its parent has the last of all its subpackages of that name. -/
theorem exists_last_of_name (hp : p.tree = t) (hparent : p.parent? = some r) :
    ∃ q, r.subpackage p.name = .ok q ∧
      ∀ p' : Package, p'.tree = t → p'.parent? = some r → p'.name = p.name →
        p'.id.val ≤ q.id.val := by
  have harranged : t.Arranged := PackageTree.arranged_of_toTree h
  have hr : r.tree = t := (parent?_eq_some_iff.mp hparent).1.trans hp
  obtain ⟨above, up, habove, hnode⟩ := SourceTree.exists_hasNode_of_node h (r.nodes_getElem? hr)
  obtain ⟨k, hk⟩ := exists_index_of_parent? h hp hparent habove
  obtain ⟨c, hfound⟩ := OrderedMap.exists_get?_ofList_of_mem (List.mem_of_getElem? hk)
  obtain ⟨i, hi, hlast⟩ := OrderedMap.exists_last_of_get?_ofList hfound
  rw [← hnode.subpackages] at hfound
  obtain ⟨q, hq, rfl⟩ := (hr ▸ harranged : r.tree.Arranged).inRange.subpackage hfound
  refine ⟨q, hq, ?_⟩
  intro p' hp' hparent' hname'
  -- `p'` stands at an index too, and the pair that was found stands at the last with the name
  obtain ⟨k', hk'⟩ := exists_index_of_parent? h hp' hparent' habove
  have hle : k' ≤ i := hlast k' _ (hname' ▸ hk')
  rw [SourceTree.subpackageNumbers_getElem?, Option.map_eq_some_iff] at hi hk'
  obtain ⟨child, hchild, heq⟩ := hi
  obtain ⟨child', hchild', heq'⟩ := hk'
  have hnumber : source.number (above ++ [i]) = q.id.val := (Prod.mk.inj heq).2
  have hnumber' : source.number (above ++ [k']) = p'.id.val := (Prod.mk.inj heq').2
  rw [← hnumber, ← hnumber']
  exact SourceTree.number_concat_le_number_concat habove.tree hchild' hchild hle

/-- A package is found again by its name just if no later one beside it has taken the name. -/
theorem subpackage_name_eq_self_iff (hp : p.tree = t) (hparent : p.parent? = some r) :
    r.subpackage p.name = .ok p ↔ ¬ p.Shadowed := by
  have harranged : t.Arranged := PackageTree.arranged_of_toTree h
  have hr : r.tree = t := (parent?_eq_some_iff.mp hparent).1.trans hp
  obtain ⟨q, hq, hlast⟩ := exists_last_of_name h hp hparent
  constructor
  · rintro hself ⟨p', htree, hparent', hname, hlt⟩
    obtain rfl : q = p := Except.ok.inj (hq.symm.trans hself)
    have hle := hlast p' (htree.trans hp) (hparent'.trans hparent) hname
    omega
  · intro hshadowed
    obtain ⟨htree, -, hqparent, hqname⟩ := (hr ▸ harranged : r.tree.Arranged).of_subpackage_eq_ok hq
    have hqp : q.tree = p.tree := htree.trans (hr.trans hp.symm)
    have hle : p.id.val ≤ q.id.val := hlast p hp hparent rfl
    have hnlt : ¬ p.id.val < q.id.val := fun hlt =>
      hshadowed ⟨q, hqp, hqparent.trans hparent.symm, hqname, hlt⟩
    have hid : q.id.val = p.id.val := by omega
    obtain rfl := ext_id hqp hid
    exact hq

/-! ## Names from the root -/

/-- The root has no package beside it. -/
theorem not_shadowed_root : ¬ t.root.Shadowed := by
  have harranged : t.Arranged := PackageTree.arranged_of_toTree h
  rintro ⟨q, htree, hparent, -, hlt⟩
  have hq : q = q.root := (PackageTree.Arranged.parent?_eq_none_iff (htree ▸ harranged)).mp
    (hparent.trans harranged.parent?_root)
  have hid : q.id.val = rootId := congrArg (fun p => p.id.val) hq
  rw [hid] at hlt
  exact Nat.not_lt_zero _ hlt

/-- Names that lead from the root to a package are those on its path, and on the way no package is
shadowed. -/
theorem names_of_descends {names : List String} (hp : p.tree = t)
    (hnames : t.root.Descends names p) :
    names = p.names.tail ∧ ∀ q ∈ p.ancestors, ¬ q.Shadowed := by
  have harranged : t.Arranged := PackageTree.arranged_of_toTree h
  induction names using List.reverseRecOn generalizing p with
  | nil =>
      cases hnames
      rw [names_of_parent?_eq_none harranged.parent?_root,
        PackageTree.Arranged.ancestors_of_parent?_eq_none harranged.parent?_root]
      simpa using not_shadowed_root h
  | append_singleton names name ih =>
      obtain ⟨q, hq, hsub⟩ := descends_concat_iff.mp hnames
      have htree : q.tree = t := hq.tree_eq
      have hq' : q.tree.Arranged := htree ▸ harranged
      have hp' : p.tree.Arranged := hp ▸ harranged
      obtain ⟨-, -, hparent, rfl⟩ := hq'.of_subpackage_eq_ok hsub
      obtain ⟨rfl, habove⟩ := ih htree hq
      have hself : ¬ p.Shadowed := (subpackage_name_eq_self_iff h hp hparent).mp hsub
      rw [names_of_parent?_eq_some hp' hparent, List.tail_append_of_ne_nil (names_ne_nil hq'),
        PackageTree.Arranged.ancestors_of_parent?_eq_some hp' hparent, List.forall_mem_cons]
      exact ⟨rfl, hself, habove⟩

theorem descends_iff {names : List String} (hp : p.tree = t) :
    t.root.Descends names p ↔ names = p.names.tail ∧ ∀ q ∈ p.ancestors, ¬ q.Shadowed := by
  constructor
  · exact names_of_descends h hp
  · rintro ⟨rfl, hshadowed⟩
    have harranged : t.Arranged := PackageTree.arranged_of_toTree h
    refine descends_names harranged hp fun q hq r hparent => ?_
    have hq' : q.tree = t := (tree_eq_of_mem_ancestors hq).trans hp
    exact (subpackage_name_eq_self_iff h hq' hparent).mpr (hshadowed q hq)

end Built

/-- No package is shadowed just if packages beside each other have different names. -/
theorem forall_not_shadowed_iff {t : PackageTree} :
    (∀ p ∈ t.packages, ¬ p.Shadowed) ↔ ∀ p ∈ t.packages, ∀ q ∈ t.packages,
      p.parent? = q.parent? → p.name = q.name → p = q := by
  simp only [PackageTree.mem_packages_iff]
  constructor
  · intro h p hp q hq hparent hname
    refine ext_id (hp.trans hq.symm) ?_
    by_contra hne
    rcases Nat.lt_or_gt_of_ne hne with hlt | hgt
    · exact h p hp ⟨q, hq.trans hp.symm, hparent.symm, hname.symm, hlt⟩
    · exact h q hq ⟨p, hp.trans hq.symm, hparent, hname, hgt⟩
  · rintro h p hp ⟨q, htree, hparent, hname, hlt⟩
    have hsame : p = q := h p hp q (htree.trans hp) hparent.symm hname.symm
    rw [hsame] at hlt
    exact Nat.lt_irrefl _ hlt

end Package

/-! ## Loaded trees -/

namespace Loader

variable {l : Loader} {fs : FileSystem} {stamp : Nat} {path : String} {t : PackageTree}

/-- Every package of a loaded tree but the root has a parent. Its parent has a subpackage under its
name, and that is the last, by number, of the packages that share its parent and its name. So it is
the package itself just if no later one beside it has its name, and names lead down to it from the
root, those on its own path and no others, just if that holds of every package on the way up.
Nothing is shadowed in a tree whose packages beside each other all have different names. -/
theorem found_unless_shadowed
    (hload : l.load fs stamp path = .ok t ∨ l.loadSystem fs stamp path = .ok t) :
    (∀ p ∈ t.packages, p ≠ t.root → ∃ r, p.parent? = some r) ∧
    (∀ p ∈ t.packages, ∀ r, p.parent? = some r →
      (∃ q, r.subpackage p.name = .ok q ∧ q.parent? = some r ∧ q.name = p.name ∧
        ∀ p' ∈ t.packages, p'.parent? = some r → p'.name = p.name → p'.id.val ≤ q.id.val) ∧
      (r.subpackage p.name = .ok p ↔ ¬ p.Shadowed)) ∧
    (∀ p ∈ t.packages, ∀ names, t.root.Descends names p ↔
      names = p.names.tail ∧ ∀ q ∈ p.ancestors, ¬ q.Shadowed) ∧
    ((∀ p ∈ t.packages, ¬ p.Shadowed) ↔ ∀ p ∈ t.packages, ∀ q ∈ t.packages,
      p.parent? = q.parent? → p.name = q.name → p = q) := by
  obtain ⟨system, source, htree⟩ := exists_toTree_of_load hload
  have harranged : t.Arranged := PackageTree.arranged_of_toTree htree
  refine ⟨?_, ?_, ?_, Package.forall_not_shadowed_iff⟩
  · intro p hp hne
    exact harranged.exists_parent?_of_ne_root (PackageTree.mem_packages_iff.mp hp) hne
  · intro p hp r hparent
    rw [PackageTree.mem_packages_iff] at hp
    have hr : r.tree = t := (Package.parent?_eq_some_iff.mp hparent).1.trans hp
    obtain ⟨q, hq, hlast⟩ := Package.exists_last_of_name htree hp hparent
    obtain ⟨-, -, hqparent, hqname⟩ := (hr ▸ harranged : r.tree.Arranged).of_subpackage_eq_ok hq
    refine ⟨⟨q, hq, hqparent, hqname, ?_⟩, Package.subpackage_name_eq_self_iff htree hp hparent⟩
    intro p' hp'
    exact hlast p' (PackageTree.mem_packages_iff.mp hp')
  · intro p hp names
    exact Package.descends_iff htree (PackageTree.mem_packages_iff.mp hp)

/-! ## Two directories with one name -/

/-- A directory whose metadata calls its package `hull`. -/
def hullEntries : List (String × FileNode) :=
  [("package.json", .file "\x7b\"name\": \"hull\"\x7d".toUTF8)]

def namesakeEntries : List (String × FileNode) :=
  [("bow", .directory hullEntries), ("stern", .directory hullEntries)]

/-- A directory `marine` with two directories, both of which call their package `hull`. -/
def namesakeFiles : FileSystem where
  root := .directory [("marine", .directory namesakeEntries)]
  workingDirectory := []

/-- Both packages are in the tree of these files, and the root has the second under their name. -/
theorem exists_load_namesakeFiles :
    ∃ (t : PackageTree) (p q : Package), standard.load namesakeFiles 1 "marine" = .ok t ∧
      p.tree = t ∧ q.tree = t ∧ p.parent? = some t.root ∧ q.parent? = some t.root ∧
      p.name = q.name ∧ p.id.val < q.id.val ∧ t.root.subpackage p.name = .ok q := by
  have hname : namesakeFiles.nameOf "marine" = .ok "marine" := by rfl
  have hentries : namesakeFiles.entries "marine" = .ok namesakeEntries := by rfl
  have hread : (standard.load namesakeFiles 1 "marine").toOption.map
      (fun t => t.nodes.map fun node => (node.name, node.parent, node.subpackages.entries)) =
        some [("marine", none, [("hull", 2)]), ("hull", some 0, []), ("hull", some 0, [])] := by
    rw [load, loadWith, SourceTree.read_of_sorted hname hentries (by decide)]
    decide +kernel
  cases hload : standard.load namesakeFiles 1 "marine" with
  | error error =>
      rw [hload] at hread
      cases hread
  | ok t =>
      rw [hload] at hread
      have hnodes := Option.some.inj hread
      simp only [List.map_eq_cons_iff, List.map_eq_nil_iff, Prod.mk.injEq] at hnodes
      obtain ⟨top, _, hall, ⟨-, -, hfiled⟩, bow, _, rfl, ⟨hbow, hbowParent, -⟩, stern, _, rfl,
        ⟨hstern, hsternParent, -⟩, rfl⟩ := hnodes
      have hbowNode : t.nodes[1]? = some bow := by rw [hall]; rfl
      have hsternNode : t.nodes[2]? = some stern := by rw [hall]; rfl
      obtain ⟨p, -, hp, hpid, rfl⟩ := PackageTree.exists_package_of_node hbowNode
      obtain ⟨q, -, hq, hqid, rfl⟩ := PackageTree.exists_package_of_node hsternNode
      have hroot : t.root.node = top := (List.cons.inj hall).1
      have hget : t.root.node.subpackages.get? "hull" = some q.id.val := by
        rw [← OrderedMap.mem_entries_iff, hroot, hfiled, hqid]
        exact List.mem_singleton_self _
      refine ⟨t, p, q, rfl, hp, hq, ?_, ?_, hbow.trans hstern.symm, by omega, ?_⟩
      · exact Package.parent?_eq_some_iff.mpr ⟨hp.symm, hbowParent⟩
      · exact Package.parent?_eq_some_iff.mpr ⟨hq.symm, hsternParent⟩
      · rw [Package.name, hbow]
        exact Package.subpackage_eq_ok_iff.mpr ⟨hq, hget⟩

/-- The first of two packages of one name beside each other is lost to lookups: under its name its
parent has the second, and no names at all lead to it from the root. -/
theorem namesakes_lose_package :
    ∃ (t : PackageTree) (p q : Package), standard.load namesakeFiles 1 "marine" = .ok t ∧
      p ∈ t.packages ∧ q ∈ t.packages ∧ p ≠ q ∧ p.parent? = some t.root ∧
      q.parent? = some t.root ∧ p.name = q.name ∧ t.root.subpackage p.name = .ok q ∧
      ¬ ∃ names, t.root.Descends names p := by
  obtain ⟨t, p, q, hload, hp, hq, hpparent, hqparent, hname, hlt, hfound⟩ :=
    exists_load_namesakeFiles
  obtain ⟨_, source, htree⟩ := exists_toTree_of_load (.inl hload)
  have hne : p ≠ q := by
    rintro rfl
    exact Nat.lt_irrefl _ hlt
  have hshadowed : p.Shadowed :=
    ⟨q, hq.trans hp.symm, hqparent.trans hpparent.symm, hname.symm, hlt⟩
  refine ⟨t, p, q, hload, PackageTree.mem_packages_iff.mpr hp, PackageTree.mem_packages_iff.mpr hq,
    hne, hpparent, hqparent, hname, hfound, ?_⟩
  rintro ⟨names, hnames⟩
  have habove := (Package.names_of_descends htree hp hnames).2
  have hself : p ∈ p.ancestors := by
    rw [PackageTree.Arranged.ancestors_of_parent?_eq_some
      (hp ▸ PackageTree.arranged_of_toTree htree) hpparent]
    exact List.mem_cons_self
  exact habove p hself hshadowed

/-- Both have a parent, and of the two the second is not shadowed, so it is found again by its
name. -/
theorem found_unless_shadowed_namesakes :
    ∃ (t : PackageTree) (p q : Package), standard.load namesakeFiles 1 "marine" = .ok t ∧
      p ∈ t.packages ∧ q ∈ t.packages ∧ (∃ r, p.parent? = some r) ∧ p.Shadowed ∧ ¬ q.Shadowed ∧
      t.root.subpackage q.name = .ok q := by
  obtain ⟨t, p, q, hload, hp, hq, hpparent, hqparent, hname, hlt, hfound⟩ :=
    exists_load_namesakeFiles
  have hmem : q ∈ t.packages := PackageTree.mem_packages_iff.mpr hq
  have hself : t.root.subpackage q.name = .ok q := hname ▸ hfound
  have hmem' : p ∈ t.packages := PackageTree.mem_packages_iff.mpr hp
  obtain ⟨hparents, hself_iff, -⟩ := found_unless_shadowed (.inl hload)
  refine ⟨t, p, q, hload, hmem', hmem, hparents p hmem' ?_, ?_, ?_, hself⟩
  · rintro rfl
    obtain ⟨_, _, htree⟩ := exists_toTree_of_load (.inl hload)
    have hnone := (PackageTree.arranged_of_toTree htree).parent?_root
    exact nomatch hpparent.symm.trans hnone
  · exact ⟨q, hq.trans hp.symm, hqparent.trans hpparent.symm, hname.symm, hlt⟩
  · exact (hself_iff q hmem t.root hqparent).2.mp hself

end Loader

end BlueprintPackages
