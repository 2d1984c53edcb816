import BlueprintPackages.Proofs.Tree.Filing

/-!
# Subtrees built by themselves

A package and all that is below it can be built as a tree of its own. To `shift` a node is to raise
every number in it: that of its parent, those of its subpackages, and that of the package to which
each of its entities says it belongs. The two constructors of this library do nothing with a number
but write it into the entity (`Registry.Standard.shift`), so what a package comes to at one number
is, shifted, what it comes to at a greater one (`Yields.shift`, `Fails.shift`, `BuildsTo.shift`).

The numbers in a subtree go on from that of its root. Hence its nodes in a whole tree are those that
it has alone, shifted by that number, and nothing of the packages around it has a part in them
(`subtree_builds_alone`).
-/

namespace BlueprintPackages

/-! ## Raising the numbers of packages -/

namespace Blueprint

/-- The same blueprint in a package whose number is greater by the offset. -/
def shift (offset : Nat) (b : Blueprint) : Blueprint := { b with package := offset + b.package }

theorem ofDefinition_shift (d : Definition) (offset id : Nat) :
    ofDefinition d (offset + id) = (ofDefinition d id).map (shift offset) := by
  show ofDefinition d (offset + id) = shift offset <$> ofDefinition d id
  simp only [ofDefinition, map_bind, map_pure]
  rfl

end Blueprint

namespace Enumeration

def shift (offset : Nat) (e : Enumeration) : Enumeration :=
  { e with package := offset + e.package }

theorem ofDefinition_shift (d : Definition) (offset id : Nat) :
    ofDefinition d (offset + id) = (ofDefinition d id).map (shift offset) := by
  show ofDefinition d (offset + id) = shift offset <$> ofDefinition d id
  simp only [ofDefinition, map_bind, map_pure]
  rfl

end Enumeration

namespace Entity

def shift (offset : Nat) : Entity → Entity
  | blueprint b => blueprint (b.shift offset)
  | enumeration e => enumeration (e.shift offset)

theorem blueprint?_shift (offset : Nat) (entity : Entity) :
    (entity.shift offset).blueprint? =
      entity.blueprint?.map fun pair => (pair.1, pair.2.shift offset) := by
  cases entity <;> rfl

theorem enumeration?_shift (offset : Nat) (entity : Entity) :
    (entity.shift offset).enumeration? =
      entity.enumeration?.map fun pair => (pair.1, pair.2.shift offset) := by
  cases entity <;> rfl

end Entity

namespace PackageNode

/-- The same node in a tree where all numbers are greater by the offset. -/
def shift (offset : Nat) (node : PackageNode) : PackageNode :=
  { node with
    parent := node.parent.map (offset + ·)
    blueprints := node.blueprints.map (Blueprint.shift offset)
    enumerations := node.enumerations.map (Enumeration.shift offset)
    subpackages := node.subpackages.map (offset + ·) }

end PackageNode

/-! ## What a package comes to at a greater number -/

/-- A constructor of a standard registry only writes the number of the package down. -/
theorem Registry.Standard.shift {registry : Registry} (h : registry.Standard) {tag : String}
    {constructor : Constructor} (hget : registry.constructor? tag = some constructor)
    (d : Definition) (offset id : Nat) :
    constructor d (offset + id) = (constructor d id).map (Entity.shift offset) := by
  rcases h tag constructor hget with rfl | rfl
  · rw [Constructor.blueprint, Constructor.blueprint, Blueprint.ofDefinition_shift]
    cases Blueprint.ofDefinition d id <;> rfl
  · rw [Constructor.enumeration, Constructor.enumeration, Enumeration.ofDefinition_shift]
    cases Enumeration.ofDefinition d id <;> rfl

namespace PackageSource

variable {s : PackageSource} {registry : Registry} {id : PackageId}

theorem Yields.shift (hstandard : registry.Standard) (offset : Nat) {d : Definition}
    {outcome : Except BuildError Entity} (h : s.Yields registry id d outcome) :
    s.Yields registry (offset + id) d (outcome.map (Entity.shift offset)) := by
  cases h with
  | badType htype => exact .badType htype
  | unknownAlias htype hsplit halias => exact .unknownAlias htype hsplit halias
  | unknownTag htag hnone => exact .unknownTag htag hnone
  | constructed htag hsome =>
      rw [← hstandard.shift hsome]
      exact .constructed htag hsome

theorem Fails.shift (hstandard : registry.Standard) (offset : Nat) {error : BuildError}
    (h : s.Fails registry id error) : s.Fails registry (offset + id) error := by
  cases h with
  | version hversion => exact .version hversion
  | definition hversion hsplit hbefore hd =>
      refine .definition hversion hsplit ?_ (hd.shift hstandard offset)
      intro b hb
      obtain ⟨entity, hentity⟩ := hbefore b hb
      exact ⟨_, hentity.shift hstandard offset⟩

theorem BuildsTo.shift (hstandard : registry.Standard) (offset : Nat) {node : PackageNode}
    (h : s.BuildsTo registry id node) :
    s.BuildsTo registry (offset + id) (node.shift offset) where
  name := h.name
  directory := h.directory
  version := h.version
  aliases := h.aliases
  entities := by
    obtain ⟨entities, hall, hblueprints, henumerations⟩ := h.entities
    refine ⟨entities.map (Entity.shift offset), ?_, ?_, ?_⟩
    · rw [List.forall₂_map_right_iff]
      exact hall.imp fun d entity hyields => hyields.shift hstandard offset
    · rw [PackageNode.shift, hblueprints, ← OrderedMap.ofList_map, List.map_filterMap,
        List.filterMap_map]
      refine congrArg OrderedMap.ofList (List.filterMap_congr fun entity _ => ?_)
      exact (entity.blueprint?_shift offset).symm
    · rw [PackageNode.shift, henumerations, ← OrderedMap.ofList_map, List.map_filterMap,
        List.filterMap_map]
      refine congrArg OrderedMap.ofList (List.filterMap_congr fun entity _ => ?_)
      exact (entity.enumeration?_shift offset).symm

end PackageSource

/-! ## Subtrees -/

namespace SourceTree

variable {registry : Registry} {t sub leaf : SourceTree} {i j : Nat} {p q : Place}

/-- The node that a package has in a subtree is the one it has in the whole tree, shifted by the
number of the subtree's root, but for the parent, which its place in the whole tree tells. -/
theorem HasNode.shift (hstandard : registry.Standard) (h : t.HasPackage i p sub)
    (hleaf : sub.HasPackage j q leaf) {node : PackageNode}
    (hnode : sub.HasNode registry j q leaf node) :
    t.HasNode registry (i + j) (p ++ q) leaf
      { node.shift i with parent := t.parentNumber (p ++ q) } where
  builds := (hnode.builds.shift hstandard i).placed _ _
  parent := rfl
  subpackages := by
    rw [h.subpackageNumbers_append hleaf, OrderedMap.ofList_map, ← hnode.subpackages]
    rfl

variable {system system' : SystemLink PackageTree} {stamp stamp' : Nat} {tree alone : PackageTree}

/-- A node of a subtree that is built by itself is found in the whole tree, behind the number of the
subtree's root. -/
theorem HasPackage.node_of_alone (hstandard : registry.Standard) (h : t.HasPackage i p sub)
    (htree : t.toTree registry system stamp = .ok tree)
    (halone : sub.toTree registry system' stamp' = .ok alone) {node : PackageNode}
    (hnode : alone.nodes[j]? = some node) :
    ∃ q leaf, sub.HasPackage j q leaf ∧ node.parent = sub.parentNumber q ∧
      tree.nodes[i + j]? = some { node.shift i with parent := t.parentNumber (p ++ q) } := by
  obtain ⟨q, leaf, hleaf, hhas⟩ := exists_hasNode_of_node halone hnode
  have hlong : t.HasPackage (i + j) (p ++ q) leaf := h.append hleaf
  obtain ⟨node', hnode', hhas'⟩ := hlong.node htree
  have hsame : node' = { node.shift i with parent := t.parentNumber (p ++ q) } :=
    hlong.hasNode_unique hhas' (hhas.shift hstandard h hleaf)
  exact ⟨q, leaf, hleaf, hhas.parent, hsame ▸ hnode'⟩

/-- A tree cannot be built if a subtree of it cannot. -/
theorem HasPackage.exists_error_of_alone (hstandard : registry.Standard) (h : t.HasPackage i p sub)
    {error : BuildError} (halone : sub.toTree registry system' stamp' = .error error) :
    ∃ error', t.toTree registry system stamp = .error error' := by
  obtain ⟨j, q, leaf, hleaf, hfails, -⟩ := toTree_eq_error_iff.mp halone
  cases htree : t.toTree registry system stamp with
  | error error' => exact ⟨error', rfl⟩
  | ok tree =>
      obtain ⟨node, -, hhas⟩ := (h.append hleaf).node htree
      exact absurd (hfails.shift hstandard i) hhas.builds.not_fails

/-- Nothing leaks into a subtree or out of it. If a whole tree is built, then so is every subtree of
it by itself, with any system package and stamp. Node for node it is the same in the whole tree, but
that all numbers are greater there by that of the subtree's root, and that this root has its parent
in the whole tree. And if a subtree cannot be built by itself, then the whole tree cannot be. -/
theorem subtree_builds_alone (hstandard : registry.Standard) (h : t.HasPackage i p sub)
    (system system' : SystemLink PackageTree) (stamp stamp' : Nat) :
    (∀ tree, t.toTree registry system stamp = .ok tree →
      ∃ alone, sub.toTree registry system' stamp' = .ok alone ∧
        tree.nodes[i]? = some { alone.top.shift i with parent := t.parentNumber p } ∧
        ∀ j node, 0 < j → alone.nodes[j]? = some node →
          tree.nodes[i + j]? = some (node.shift i)) ∧
    ∀ error, sub.toTree registry system' stamp' = .error error →
      ∃ error', t.toTree registry system stamp = .error error' := by
  refine ⟨?_, fun error halone => h.exists_error_of_alone hstandard halone⟩
  intro tree htree
  have hsuccess : ∃ alone, sub.toTree registry system' stamp' = .ok alone := by
    refine Fallible.exists_ok_of_forall_ne_error fun error halone => ?_
    obtain ⟨error', htree'⟩ := h.exists_error_of_alone hstandard halone
    exact nomatch htree.symm.trans htree'
  obtain ⟨alone, halone⟩ := hsuccess
  refine ⟨alone, halone, ?_, ?_⟩
  · have htop : alone.nodes[0]? = some alone.top := rfl
    obtain ⟨q, leaf, hleaf, -, hnode⟩ := h.node_of_alone hstandard htree halone htop
    obtain ⟨rfl, -⟩ := hleaf.unique (hasPackage_root sub)
    rwa [Nat.add_zero, List.append_nil] at hnode
  · intro j node hj hget
    obtain ⟨q, leaf, hleaf, hparent, hnode⟩ := h.node_of_alone hstandard htree halone hget
    have hne : q ≠ [] := by
      rintro rfl
      have hzero := hleaf.number_eq
      rw [number_nil] at hzero
      omega
    -- below the subtree's root the parent is in the subtree too, so its number is only raised
    rw [h.parentNumber_append hleaf hne, ← hparent] at hnode
    exact hnode

/-- The core of the bundled system package, built by itself: but for the numbers it has the node
there that it has in the bundled tree, where `system` is above it. -/
theorem subtree_builds_alone_core : ∃ alone,
    SourceTree.toTree .simos .absent 1
        (.node (SystemPackage.sourceOf SystemPackage.coreName SystemPackage.definitions) []) =
      .ok alone ∧
    SystemPackage.bundled.nodes[1]? = some { alone.top.shift 1 with parent := some rootId } := by
  have hcore : SystemPackage.source.HasPackage 1 [0]
      (.node (SystemPackage.sourceOf SystemPackage.coreName SystemPackage.definitions) []) :=
    ⟨rfl, rfl⟩
  obtain ⟨alone, halone, htop, -⟩ :=
    (subtree_builds_alone Registry.standard_simos hcore .own .absent SystemPackage.stamp 1).1 _
      SystemPackage.built_eq
  exact ⟨alone, halone, htop⟩

end SourceTree

end BlueprintPackages
