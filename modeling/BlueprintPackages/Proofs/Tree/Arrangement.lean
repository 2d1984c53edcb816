import BlueprintPackages.Proofs.OrderedMap
import BlueprintPackages.Proofs.Source.Growing

/-!
# How the nodes of a tree refer to each other

In an `Arranged` tree the root alone has no parent, every parent comes before its subpackages, and a
package is filed in its parent under its own name. Every built tree is arranged
(`arranged_of_toTree`). In such a tree no number in a node leads out of the tree, so whoever asks a
package for its parent or for a subpackage is given a package, and climbing ends at the root:
`ancestors` is never cut short by its count (`ancestors_of_parent?_eq_some`), which makes climbing
an induction (`Arranged.climb_induction`). The way down is `Descends`: from a package by names, each
of them looked up among the subpackages of the package before. The names met on the way up lead down
again, as long as every package on it is the one that is found under its name (`descends_names`).
-/

namespace BlueprintPackages

namespace PackageTree

/-- The nodes refer to each other as a tree does whose packages come after their parents. -/
structure Arranged (t : PackageTree) : Prop where
  /-- The root has no parent. -/
  root : t.top.parent = none
  /-- Every other package has one, which comes before it. -/
  parent : ∀ {i : Nat} {node : PackageNode}, t.nodes[i]? = some node → i ≠ rootId →
    ∃ j < i, node.parent = some j
  /-- What is filed as a subpackage comes later, is there, and knows its name and parent. -/
  subpackage : ∀ {i c : Nat} {node : PackageNode} {name : String}, t.nodes[i]? = some node →
    node.subpackages.get? name = some c →
    i < c ∧ ∃ child, t.nodes[c]? = some child ∧ child.parent = some i ∧ child.name = name

/-- Every tree that is built from sources is arranged. -/
theorem arranged_of_toTree {registry : Registry} {system : SystemLink PackageTree} {stamp : Nat}
    {source : SourceTree} {t : PackageTree} (h : source.toTree registry system stamp = .ok t) :
    t.Arranged where
  root := by
    obtain ⟨p, sub, hpackage, hnode⟩ :=
      SourceTree.exists_hasNode_of_node h (rfl : t.nodes[0]? = some t.top)
    obtain ⟨rfl, -⟩ := hpackage.unique (SourceTree.hasPackage_root source)
    exact hnode.parent
  parent := by
    intro i node hi hne
    obtain ⟨p, sub, hpackage, hnode⟩ := SourceTree.exists_hasNode_of_node h hi
    rcases List.eq_nil_or_concat p with rfl | ⟨q, k, rfl⟩
    · rw [← hpackage.number_eq, SourceTree.number_nil] at hne
      exact absurd rfl hne
    · rw [List.concat_eq_append] at hpackage hnode
      obtain ⟨up, hup⟩ := SourceTree.exists_at?_dropLast hpackage.tree
      rw [List.dropLast_concat] at hup
      refine ⟨source.number q, ?_, ?_⟩
      · rw [← hpackage.number_eq]
        exact SourceTree.number_lt_number_concat hup (SourceTree.at?_concat hup k ▸ hpackage.tree)
      · rw [hnode.parent, SourceTree.parentNumber_concat]
  subpackage := by
    intro i c node name hi hget
    obtain ⟨p, sub, hpackage, hnode⟩ := SourceTree.exists_hasNode_of_node h hi
    rw [hnode.subpackages] at hget
    obtain ⟨k, child, hchild, rfl, rfl⟩ :=
      SourceTree.mem_subpackageNumbers_iff.mp (OrderedMap.mem_of_get?_ofList hget)
    have hat : source.at? (p ++ [k]) = some child :=
      (SourceTree.at?_concat hpackage.tree k).trans hchild
    obtain ⟨childNode, hchildNode, hhas⟩ := (SourceTree.hasPackage_number hat).node h
    refine ⟨?_, childNode, hchildNode, ?_, hhas.builds.name⟩
    · exact hpackage.number_eq ▸ SourceTree.number_lt_number_concat hpackage.tree hchild
    · rw [hhas.parent, SourceTree.parentNumber_concat, hpackage.number_eq]

theorem package?_eq_some_iff {t : PackageTree} {i : PackageId} {p : Package} :
    t.package? i = some p ↔ p.tree = t ∧ p.id.val = i := by
  rw [package?]
  constructor
  · intro h
    split at h
    · obtain rfl := Option.some.inj h
      exact ⟨rfl, rfl⟩
    · exact nomatch h
  · obtain ⟨tree, id⟩ := p
    rintro ⟨rfl, rfl⟩
    exact dif_pos id.isLt

/-- A number that stands for a node stands for a package. -/
theorem exists_package_of_node {t : PackageTree} {i : Nat} {node : PackageNode}
    (h : t.nodes[i]? = some node) :
    ∃ p, t.package? i = some p ∧ p.tree = t ∧ p.id.val = i ∧ p.node = node := by
  obtain ⟨hi, rfl⟩ := List.getElem?_eq_some_iff.mp h
  exact ⟨⟨t, ⟨i, hi⟩⟩, package?_eq_some_iff.mpr ⟨rfl, rfl⟩, rfl, rfl, rfl⟩

/-- The list of all packages has each package of the tree, and no others. -/
theorem mem_packages_iff {t : PackageTree} {p : Package} : p ∈ t.packages ↔ p.tree = t := by
  rw [packages, List.mem_map]
  constructor
  · rintro ⟨id, -, rfl⟩
    rfl
  · rintro rfl
    exact ⟨p.id, List.mem_finRange _, rfl⟩

end PackageTree

namespace Package

/-! ## Asking for what is around a package -/

theorem ext_id {p q : Package} (htree : p.tree = q.tree) (hid : p.id.val = q.id.val) : p = q := by
  obtain ⟨tree, id⟩ := p
  obtain ⟨tree', id'⟩ := q
  obtain rfl : tree = tree' := htree
  obtain rfl : id = id' := Fin.ext hid
  rfl

theorem nodes_getElem? (p : Package) {t : PackageTree} (h : p.tree = t) :
    t.nodes[p.id.val]? = some p.node := by
  obtain rfl := h
  exact List.getElem?_eq_getElem p.id.isLt

variable {p q : Package}

theorem parent?_eq_some_iff :
    p.parent? = some q ↔ q.tree = p.tree ∧ p.node.parent = some q.id.val := by
  rw [parent?, Option.bind_eq_some_iff]
  constructor
  · rintro ⟨i, hi, hq⟩
    obtain ⟨htree, rfl⟩ := PackageTree.package?_eq_some_iff.mp hq
    exact ⟨htree, hi⟩
  · rintro ⟨htree, hi⟩
    exact ⟨_, hi, PackageTree.package?_eq_some_iff.mpr ⟨htree, rfl⟩⟩

theorem subpackage_eq_ok_iff {name : String} :
    p.subpackage name = .ok q ↔
      q.tree = p.tree ∧ p.node.subpackages.get? name = some q.id.val := by
  rw [subpackage]
  split
  · next found hfound =>
    obtain ⟨i, hi, hpackage⟩ := Option.bind_eq_some_iff.mp hfound
    obtain ⟨htree, rfl⟩ := PackageTree.package?_eq_some_iff.mp hpackage
    rw [Except.ok.injEq, hi, Option.some.injEq]
    constructor
    · rintro rfl
      exact ⟨htree, rfl⟩
    · rintro ⟨htree', hid⟩
      exact ext_id (htree.trans htree'.symm) hid
  · next hnone =>
    refine ⟨(fun h => nomatch h), ?_⟩
    rintro ⟨htree, hi⟩
    rw [hi, Option.bind_some, PackageTree.package?_eq_some_iff.mpr ⟨htree, rfl⟩] at hnone
    exact nomatch hnone

/-- Climbing never leaves the tree. -/
theorem tree_eq_of_mem_ancestors (hq : q ∈ p.ancestors) : q.tree = p.tree := by
  rw [ancestors] at hq
  generalize p.tree.size = count at hq
  induction count generalizing p with
  | zero => exact absurd hq List.not_mem_nil
  | succ count ih =>
      rw [climb, List.mem_cons] at hq
      rcases hq with rfl | hq
      · rfl
      · split at hq
        · next r hparent =>
          have htree : r.tree = p.tree := (parent?_eq_some_iff.mp hparent).1
          exact (ih hq).trans htree
        · exact absurd hq List.not_mem_nil

/-! ## Going down -/

/-- Names lead from a package down to another, each to a subpackage of the package before. -/
inductive Descends : Package → List String → Package → Prop
  | here {p : Package} : Descends p [] p
  | down {p q r : Package} {name : String} {rest : List String}
      (hsub : p.subpackage name = .ok q) (h : Descends q rest r) : Descends p (name :: rest) r

/-- Going down never leaves the tree. -/
theorem Descends.tree_eq {names : List String} (h : p.Descends names q) : q.tree = p.tree := by
  induction h with
  | here => rfl
  | down hsub _ ih =>
      have htree := (subpackage_eq_ok_iff.mp hsub).1
      exact ih.trans htree

theorem descends_concat_iff {names : List String} {name : String} :
    p.Descends (names ++ [name]) q ↔ ∃ r, p.Descends names r ∧ r.subpackage name = .ok q := by
  constructor
  · intro h
    induction names generalizing p with
    | nil =>
        cases h with
        | down hsub hrest =>
            cases hrest
            exact ⟨p, .here, hsub⟩
    | cons first rest ih =>
        cases h with
        | down hsub hrest =>
            obtain ⟨r, hr, hlast⟩ := ih hrest
            exact ⟨r, .down hsub hr, hlast⟩
  · rintro ⟨r, hr, hlast⟩
    induction hr with
    | here => exact .down hlast .here
    | down hsub _ ih => exact .down hsub (ih hlast)

end Package

namespace PackageTree.Arranged

variable {t : PackageTree} {p q : Package}

theorem parent_eq_none_iff (h : t.Arranged) {i : Nat} {node : PackageNode}
    (hi : t.nodes[i]? = some node) : node.parent = none ↔ i = rootId := by
  constructor
  · intro hnone
    by_contra hne
    obtain ⟨j, -, hparent⟩ := h.parent hi hne
    exact nomatch hnone.symm.trans hparent
  · rintro rfl
    obtain rfl := Option.some.inj hi
    exact h.root

theorem parent_lt (h : t.Arranged) {i j : Nat} {node : PackageNode}
    (hi : t.nodes[i]? = some node) (hparent : node.parent = some j) : j < i := by
  have hne : i ≠ rootId := by
    intro hroot
    exact nomatch ((h.parent_eq_none_iff hi).mpr hroot).symm.trans hparent
  obtain ⟨j', hj, hparent'⟩ := h.parent hi hne
  obtain rfl := Option.some.inj (hparent.symm.trans hparent')
  exact hj

/-- The parent of a package in an arranged tree is a package of the same tree before it. -/
theorem parent?_lt (h : p.tree.Arranged) (hparent : p.parent? = some q) :
    q.tree = p.tree ∧ q.id.val < p.id.val := by
  obtain ⟨htree, hnode⟩ := Package.parent?_eq_some_iff.mp hparent
  exact ⟨htree, h.parent_lt (p.nodes_getElem? rfl) hnode⟩

/-- No number of a parent is lost. -/
theorem map_id_parent? (h : p.tree.Arranged) :
    p.parent?.map (fun q => q.id.val) = p.node.parent := by
  cases hnode : p.node.parent with
  | none => rw [Package.parent?, hnode, Option.bind_none, Option.map_none]
  | some j =>
      have hj : j < p.tree.size :=
        Nat.lt_trans (h.parent_lt (p.nodes_getElem? rfl) hnode) p.id.isLt
      rw [Package.parent?, hnode, Option.bind_some, PackageTree.package?, dif_pos hj,
        Option.map_some]

/-- Only the root is without a parent. -/
theorem parent?_eq_none_iff (h : p.tree.Arranged) : p.parent? = none ↔ p = p.root := by
  rw [← Option.map_eq_none_iff, h.map_id_parent?, h.parent_eq_none_iff (p.nodes_getElem? rfl)]
  exact ⟨fun hid => Package.ext_id rfl hid, fun hroot => congrArg (fun q => q.id.val) hroot⟩

theorem exists_parent?_of_ne_root (h : t.Arranged) (hp : p.tree = t) (hne : p ≠ t.root) :
    ∃ q, p.parent? = some q := by
  subst hp
  exact Option.ne_none_iff_exists'.mp (mt (parent?_eq_none_iff h).mp hne)

theorem parent?_root (h : t.Arranged) : t.root.parent? = none :=
  (parent?_eq_none_iff (p := t.root) h).mpr rfl

/-- A name is either filed, and then a package is found under it, or it is not. -/
theorem subpackage_eq_error_iff (h : p.tree.Arranged) {name : String} {error : LookupError} :
    p.subpackage name = .error error ↔
      p.node.subpackages.get? name = none ∧ error = p.notFound .package name := by
  cases hget : p.node.subpackages.get? name with
  | none => simp [Package.subpackage, hget, eq_comm]
  | some i =>
      obtain ⟨-, child, hchild, -, -⟩ := h.subpackage (p.nodes_getElem? rfl) hget
      obtain ⟨q, hq, -⟩ := exists_package_of_node hchild
      simp [Package.subpackage, hget, hq]

/-- A subpackage is in the same tree, comes later, and has the name it was found under and the
package it was found in as its parent. -/
theorem of_subpackage_eq_ok (h : p.tree.Arranged) {name : String}
    (hsub : p.subpackage name = .ok q) :
    q.tree = p.tree ∧ p.id.val < q.id.val ∧ q.parent? = some p ∧ q.name = name := by
  obtain ⟨htree, hget⟩ := Package.subpackage_eq_ok_iff.mp hsub
  obtain ⟨hlt, child, hchild, hparent, hname⟩ := h.subpackage (p.nodes_getElem? rfl) hget
  have hnode : q.node = child := Option.some.inj ((q.nodes_getElem? htree).symm.trans hchild)
  refine ⟨htree, hlt, ?_, ?_⟩
  · exact Package.parent?_eq_some_iff.mpr ⟨htree.symm, hnode ▸ hparent⟩
  · rw [Package.name, hnode, hname]

/-! ## Climbing -/

/-- What holds of the root and, with a package, of all that have it as their parent, holds of every
package. -/
theorem climb_induction (h : t.Arranged) {motive : Package → Prop} (root : motive t.root)
    (step : ∀ p q, p.tree = t → p.parent? = some q → motive q → motive p) (p : Package)
    (hp : p.tree = t) : motive p := by
  -- the numbers get smaller on the way up
  induction hn : p.id.val using Nat.strongRecOn generalizing p with
  | ind n ih =>
      cases hparent : p.parent? with
      | none =>
          have hroot := (parent?_eq_none_iff (hp ▸ h)).mp hparent
          rw [hroot, Package.root, hp]
          exact root
      | some q =>
          obtain ⟨htree, hlt⟩ := parent?_lt (hp ▸ h) hparent
          exact step p q hp hparent (ih _ (hn ▸ hlt) q (htree.trans hp) rfl)

/-- Any count above the number of a package is enough to climb to the root. -/
theorem climb_eq_climb (h : t.Arranged) {n m : Nat} (p : Package) (hp : p.tree = t)
    (hn : p.id.val < n) (hm : p.id.val < m) : Package.climb n p = Package.climb m p := by
  induction n generalizing m p with
  | zero => exact absurd hn (Nat.not_lt_zero _)
  | succ n ih =>
      cases m with
      | zero => exact absurd hm (Nat.not_lt_zero _)
      | succ m =>
          rw [Package.climb, Package.climb]
          cases hparent : p.parent? with
          | none => rfl
          | some q =>
              obtain ⟨htree, hlt⟩ := parent?_lt (hp ▸ h) hparent
              exact congrArg (p :: ·) (ih q (htree.trans hp) (by omega) (by omega))

theorem ancestors_of_parent?_eq_some (h : p.tree.Arranged) (hparent : p.parent? = some q) :
    p.ancestors = p :: q.ancestors := by
  obtain ⟨htree, hlt⟩ := h.parent?_lt hparent
  have hsize : p.tree.size = p.tree.size - 1 + 1 := by
    have := p.id.isLt
    omega
  rw [Package.ancestors, hsize, Package.climb, hparent, Package.ancestors]
  -- the parent climbs with a larger count than is left here, and both are enough
  refine congrArg (p :: ·) (climb_eq_climb h q htree ?_ ?_)
  · have := p.id.isLt
    omega
  · exact q.id.isLt

theorem ancestors_of_parent?_eq_none (hparent : p.parent? = none) : p.ancestors = [p] := by
  have hsize : p.tree.size = p.tree.size - 1 + 1 := by
    have := p.id.isLt
    omega
  rw [Package.ancestors, hsize, Package.climb, hparent]

end PackageTree.Arranged

namespace Package

variable {p q : Package}

/-! ## Names on the way up -/

theorem names_of_parent?_eq_none (hparent : p.parent? = none) : p.names = [p.name] := by
  rw [names, PackageTree.Arranged.ancestors_of_parent?_eq_none hparent]
  rfl

theorem names_of_parent?_eq_some (h : p.tree.Arranged) (hparent : p.parent? = some q) :
    p.names = q.names ++ [p.name] := by
  rw [names, PackageTree.Arranged.ancestors_of_parent?_eq_some h hparent, List.map_cons,
    List.reverse_cons]
  rfl

theorem names_ne_nil (h : p.tree.Arranged) : p.names ≠ [] := by
  cases hparent : p.parent? with
  | none => simp [names_of_parent?_eq_none hparent]
  | some q => simp [names_of_parent?_eq_some h hparent]

/-- If every package on the way up is found again by its name, the names on the path lead down from
the root. -/
theorem descends_names {t : PackageTree} (h : t.Arranged) (hp : p.tree = t)
    (hfiled : ∀ q ∈ p.ancestors, ∀ r, q.parent? = some r → r.subpackage q.name = .ok q) :
    t.root.Descends p.names.tail p := by
  revert hfiled
  refine h.climb_induction (motive := fun p =>
    (∀ q ∈ p.ancestors, ∀ r, q.parent? = some r → r.subpackage q.name = .ok q) →
      t.root.Descends p.names.tail p) ?_ ?_ p hp
  · intro _
    rw [names_of_parent?_eq_none h.parent?_root]
    exact .here
  · intro p q hp hparent ih hfiled
    have harranged : p.tree.Arranged := hp ▸ h
    have hq : q.tree.Arranged := (harranged.parent?_lt hparent).1 ▸ harranged
    rw [PackageTree.Arranged.ancestors_of_parent?_eq_some harranged hparent, List.forall_mem_cons]
      at hfiled
    have hself : q.subpackage p.name = .ok p := hfiled.1 q hparent
    rw [names_of_parent?_eq_some harranged hparent, List.tail_append_of_ne_nil (names_ne_nil hq)]
    exact descends_concat_iff.mpr ⟨q, ih hfiled.2, hself⟩

end Package

end BlueprintPackages
