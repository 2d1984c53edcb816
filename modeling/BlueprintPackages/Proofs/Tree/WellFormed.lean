import BlueprintPackages.Proofs.Tree.Arrangement
import BlueprintPackages.Proofs.Tree.Filing
import BlueprintPackages.SystemPackage

/-!
# Built trees are well formed

A `WellFormed` tree has a root, which alone has no parent, parents before subpackages, subpackages
and entities filed under their own names, and the packages below each package numbered without a
gap. The last is where the order of the places pays: a package is above another just if its place
begins the place of the other (`mem_ancestors_iff_prefix`), and the places that begin with a given
one follow each other (`prefix_iff_number`).

A package is `InRange` if its accessors lose none of the packages that its node names. Every package
of a built tree is, and the list of all packages has every parent before its subpackages
(`wellFormed_of_toTree`).
-/

namespace BlueprintPackages

/-! ## What well-formedness means -/

/-- The nodes of a tree fit together. -/
structure PackageTree.WellFormed (t : PackageTree) : Prop where
  size_pos : 0 < t.size
  /-- The first node alone has no parent. -/
  parent_eq_none_iff : ∀ {i : Nat} {node : PackageNode}, t.nodes[i]? = some node →
    (node.parent = none ↔ i = 0)
  parent_lt : ∀ {i j : Nat} {node : PackageNode}, t.nodes[i]? = some node →
    node.parent = some j → j < i
  /-- What is filed as a subpackage comes later, is there, and knows its name and parent. -/
  subpackage : ∀ {i c : Nat} {node : PackageNode} {name : String}, t.nodes[i]? = some node →
    (name, c) ∈ node.subpackages.entries →
    i < c ∧ c < t.size ∧
      ∃ child, t.nodes[c]? = some child ∧ child.parent = some i ∧ child.name = name
  /-- The numbers of a package and of all packages below it follow each other. -/
  contiguous : ∀ {p : Package}, p.tree = t → ∃ count, ∀ {q : Package}, q.tree = t →
    (p ∈ q.ancestors ↔ p.id.val ≤ q.id.val ∧ q.id.val < p.id.val + count)
  /-- Entities are filed under their own names and know the package they are filed in. -/
  blueprint : ∀ {i : Nat} {node : PackageNode} {name : String} {b : Blueprint},
    t.nodes[i]? = some node → (name, b) ∈ node.blueprints.entries → b.name = name ∧ b.package = i
  enumeration : ∀ {i : Nat} {node : PackageNode} {name : String} {e : Enumeration},
    t.nodes[i]? = some node → (name, e) ∈ node.enumerations.entries →
      e.name = name ∧ e.package = i

/-- Every number that the node of a package holds leads to a package, and climbing ends at the
root. -/
structure Package.InRange (p : Package) : Prop where
  root : p.tree.package? rootId = some p.root
  parent : p.parent?.map (fun q => q.id.val) = p.node.parent
  subpackages : p.subpackages.map (fun q => q.id.val) = p.node.subpackages.values
  subpackage : ∀ {name : String} {c : Nat}, p.node.subpackages.get? name = some c →
    ∃ q, p.subpackage name = .ok q ∧ q.id.val = c
  ancestors : p.ancestors.getLast? = some p.root

/-! ## Numbers below a place -/

namespace SourceTree

/-- The places that begin with a given one are those with the next numbers, as many as there are
packages in the tree there. -/
theorem prefix_iff_number {t sub sub' : SourceTree} {p q : Place} {i j : Nat}
    (hp : t.HasPackage i p sub) (hq : t.HasPackage j q sub') :
    p <+: q ↔ i ≤ j ∧ j < i + sub.size := by
  constructor
  · rintro ⟨rest, rfl⟩
    have hrest : sub.at? rest = some sub' := by
      have hat := hq.tree
      rwa [at?_append, hp.tree, Option.bind_some] at hat
    have hlong := hp.append (hasPackage_number hrest)
    have hnumber : i + sub.number rest = j := hlong.number_eq.symm.trans hq.number_eq
    have hlt : sub.number rest < sub.size := number_lt_size hrest
    omega
  · rintro ⟨hle, hlt⟩
    -- the package that many places below `p` has the number of `q`, so it stands at `q`
    obtain ⟨rest, below, hrest⟩ : ∃ rest below, sub.HasPackage (j - i) rest below :=
      exists_hasPackage (by omega)
    have hlong := hp.append hrest
    rw [Nat.add_sub_cancel' hle] at hlong
    obtain ⟨rfl, -⟩ := hlong.unique hq
    exact List.prefix_append p rest

end SourceTree

/-! ## Ancestors are the places on the way -/

section Built

variable {registry : Registry} {system : SystemLink PackageTree} {stamp : Nat}
  {source : SourceTree} {t : PackageTree} (h : source.toTree registry system stamp = .ok t)

include h

/-- The parent of a package stands one step above its place. -/
theorem Package.exists_place_of_parent? {q r : Package} (hq : q.tree = t)
    (hparent : q.parent? = some r) {place : Place} {sub : SourceTree}
    (hplace : source.HasPackage q.id.val place sub) :
    ∃ above k up, place = above ++ [k] ∧ source.HasPackage r.id.val above up := by
  obtain ⟨-, hnode⟩ := Package.parent?_eq_some_iff.mp hparent
  obtain ⟨node, hget, hhas⟩ := hplace.node h
  obtain rfl := Option.some.inj ((q.nodes_getElem? hq).symm.trans hget)
  rw [hhas.parent] at hnode
  rcases List.eq_nil_or_concat place with rfl | ⟨above, k, rfl⟩
  · exact nomatch hnode
  · rw [List.concat_eq_append] at hplace hnode
    rw [SourceTree.parentNumber_concat, Option.some.injEq] at hnode
    obtain ⟨up, hup⟩ := SourceTree.exists_at?_dropLast hplace.tree
    rw [List.dropLast_concat] at hup
    exact ⟨above, k, up, List.concat_eq_append, hnode ▸ SourceTree.hasPackage_number hup⟩

/-- A package is an ancestor just if its place begins the place of the other. -/
theorem Package.mem_ancestors_iff_prefix {p : Package} (hp : p.tree = t) {above : Place}
    {up : SourceTree} (habove : source.HasPackage p.id.val above up) {q : Package}
    (hq : q.tree = t) {place : Place} {sub : SourceTree}
    (hplace : source.HasPackage q.id.val place sub) : p ∈ q.ancestors ↔ above <+: place := by
  have harranged := PackageTree.arranged_of_toTree h
  revert place sub
  refine harranged.climb_induction
    (motive := fun q => ∀ {place sub}, source.HasPackage q.id.val place sub →
      (p ∈ q.ancestors ↔ above <+: place)) ?_ ?_ q hq
  · intro place sub hplace
    obtain ⟨rfl, -⟩ := hplace.unique (SourceTree.hasPackage_root source)
    rw [PackageTree.Arranged.ancestors_of_parent?_eq_none harranged.parent?_root,
      List.mem_singleton, List.prefix_nil]
    constructor
    · rintro rfl
      exact (habove.unique (SourceTree.hasPackage_root source)).1
    · rintro rfl
      refine Package.ext_id hp ?_
      rw [← habove.number_eq, SourceTree.number_nil]
      rfl
  · intro q r hq hparent ih place sub hplace
    obtain ⟨before, k, _, rfl, hbefore⟩ := Package.exists_place_of_parent? h hq hparent hplace
    rw [PackageTree.Arranged.ancestors_of_parent?_eq_some (hq ▸ harranged) hparent,
      List.mem_cons, ih hbefore, List.prefix_concat_iff]
    -- what begins a place is the place itself or begins the one above, like the ancestors
    refine or_congr_left ⟨?_, ?_⟩
    · rintro rfl
      exact (habove.unique hplace).1
    · rintro rfl
      exact Package.ext_id (hp.trans hq.symm) (habove.number_eq.symm.trans hplace.number_eq)

/-- The packages below a package have the numbers that follow its own. -/
theorem Package.exists_count_below {p : Package} (hp : p.tree = t) :
    ∃ count, ∀ {q : Package}, q.tree = t →
      (p ∈ q.ancestors ↔ p.id.val ≤ q.id.val ∧ q.id.val < p.id.val + count) := by
  obtain ⟨above, up, habove, -⟩ := SourceTree.exists_hasNode_of_node h (p.nodes_getElem? hp)
  refine ⟨up.size, fun {q} hq => ?_⟩
  obtain ⟨place, sub, hplace, -⟩ := SourceTree.exists_hasNode_of_node h (q.nodes_getElem? hq)
  rw [Package.mem_ancestors_iff_prefix h hp habove hq hplace,
    SourceTree.prefix_iff_number habove hplace]

end Built

/-! ## Accessors -/

namespace PackageTree

/-- The list of all packages holds each at its number. -/
theorem packages_getElem? (t : PackageTree) (i : Nat) : t.packages[i]? = t.package? i := by
  rw [packages, package?]
  split
  · next hi => rw [List.getElem?_eq_getElem (by simpa using hi)]; simp
  · next hi => rw [List.getElem?_eq_none (by simpa using hi)]

theorem map_id_filterMap_package? {t : PackageTree} {ids : List Nat} (h : ∀ c ∈ ids, c < t.size) :
    (ids.filterMap t.package?).map (fun q => q.id.val) = ids := by
  induction ids with
  | nil => rfl
  | cons c rest ih =>
      rw [List.forall_mem_cons] at h
      have hc : t.package? c = some ⟨t, ⟨c, h.1⟩⟩ := dif_pos h.1
      rw [List.filterMap_cons_some hc, List.map_cons, ih h.2]

namespace Arranged

variable {p : Package}

theorem getLast?_ancestors (h : p.tree.Arranged) : p.ancestors.getLast? = some p.root := by
  refine climb_induction h (motive := fun p => p.ancestors.getLast? = some p.root) ?_ ?_ p rfl
  · rw [ancestors_of_parent?_eq_none h.parent?_root]
    rfl
  · intro q r hq hparent ih
    obtain ⟨htree, -⟩ := parent?_lt (hq ▸ h) hparent
    rw [ancestors_of_parent?_eq_some (hq ▸ h) hparent, List.getLast?_cons, ih, Package.root,
      Package.root, htree]
    rfl

/-- In an arranged tree the accessors of a package give all that its node names. -/
theorem inRange (h : p.tree.Arranged) : p.InRange where
  root := package?_eq_some_iff.mpr ⟨rfl, rfl⟩
  parent := h.map_id_parent?
  subpackages := by
    have hrange : ∀ c ∈ p.node.subpackages.values, c < p.tree.size := by
      intro c hc
      obtain ⟨name, hget⟩ := OrderedMap.mem_values_iff.mp hc
      obtain ⟨-, child, hchild, -⟩ := h.subpackage (p.nodes_getElem? rfl) hget
      exact (List.getElem?_eq_some_iff.mp hchild).1
    exact map_id_filterMap_package? hrange
  subpackage := by
    intro name c hget
    obtain ⟨-, child, hchild, -, -⟩ := h.subpackage (p.nodes_getElem? rfl) hget
    obtain ⟨q, -, htree, hid, -⟩ := exists_package_of_node hchild
    exact ⟨q, Package.subpackage_eq_ok_iff.mpr ⟨htree, hid ▸ hget⟩, hid⟩
  ancestors := h.getLast?_ancestors

end Arranged

/-! ## Every built tree -/

/-- Every tree built with the constructors of this library is well formed. Hence no accessor of any
package in it is led out of the tree, and the list of all packages, which has each of them at its
number, has every parent before its subpackages. -/
theorem wellFormed_of_toTree {registry : Registry} (hstandard : registry.Standard)
    {system : SystemLink PackageTree} {stamp : Nat} {source : SourceTree} {t : PackageTree}
    (h : source.toTree registry system stamp = .ok t) :
    t.WellFormed ∧ (∀ p : Package, p.tree = t → p.InRange) ∧
      (∀ i, t.packages[i]? = t.package? i) ∧
      ∀ (i j : Nat) (p q : Package), t.packages[i]? = some p → t.packages[j]? = some q →
        q.parent? = some p → i < j := by
  have harranged : t.Arranged := arranged_of_toTree h
  have hfiled : t.Filed := filed_of_toTree hstandard h
  refine ⟨?_, ?_, t.packages_getElem?, ?_⟩
  · exact {
      size_pos := Nat.succ_pos _
      parent_eq_none_iff := harranged.parent_eq_none_iff
      parent_lt := harranged.parent_lt
      subpackage := by
        intro i c node name hi hentry
        obtain ⟨hlt, child, hchild, hparent, hname⟩ :=
          harranged.subpackage hi (OrderedMap.mem_entries_iff.mp hentry)
        exact ⟨hlt, (List.getElem?_eq_some_iff.mp hchild).1, child, hchild, hparent, hname⟩
      contiguous := Package.exists_count_below h
      blueprint := fun hi hentry => hfiled.blueprint hi (OrderedMap.mem_entries_iff.mp hentry)
      enumeration := fun hi hentry =>
        hfiled.enumeration hi (OrderedMap.mem_entries_iff.mp hentry) }
  · rintro p rfl
    exact harranged.inRange
  · intro i j p q hp hq hparent
    rw [packages_getElem?, package?_eq_some_iff] at hp hq
    obtain ⟨rfl, rfl⟩ := hp
    obtain ⟨htree, rfl⟩ := hq
    exact (Arranged.parent?_lt (htree ▸ harranged) hparent).2

/-- The bundled system package is such a tree. -/
theorem wellFormed_bundled :
    Registry.simos.Standard ∧
      SystemPackage.source.toTree .simos .own SystemPackage.stamp = .ok SystemPackage.bundled ∧
      SystemPackage.bundled.WellFormed :=
  ⟨Registry.standard_simos, SystemPackage.built_eq,
    (wellFormed_of_toTree Registry.standard_simos SystemPackage.built_eq).1⟩

end PackageTree

end BlueprintPackages
