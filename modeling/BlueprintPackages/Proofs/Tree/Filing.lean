import BlueprintPackages.Proofs.Definition.Grammar
import BlueprintPackages.Proofs.OrderedMap
import BlueprintPackages.Proofs.Source.Growing
import BlueprintPackages.SystemPackage

/-!
# Where entities are filed

A registry of one's own may build entities of any package. One that is `Standard`, whatever tags it
knows, builds them with the two constructors of this library, and those build an entity of the
package they are called for. In a tree of such a registry every blueprint and every enumeration is
`Filed`: under its own name, in the package that it says it belongs to (`filed_of_toTree`). Such a
tree is called `Standard` too.
-/

namespace BlueprintPackages

/-! ## Constructors -/

namespace Entity

/-- The package that an entity says it belongs to. -/
def package : Entity → PackageId
  | blueprint b => b.package
  | enumeration e => e.package

theorem blueprint?_eq_some_iff {entity : Entity} {name : String} {b : Blueprint} :
    entity.blueprint? = some (name, b) ↔ entity = .blueprint b ∧ b.name = name := by
  cases entity with
  | blueprint b' =>
      rw [blueprint?, Option.some.injEq, Prod.mk.injEq, Entity.blueprint.injEq]
      exact ⟨fun ⟨hname, hb⟩ => ⟨hb, hb ▸ hname⟩, fun ⟨hb, hname⟩ => ⟨hb ▸ hname, hb⟩⟩
  | enumeration e => simp [blueprint?]

theorem enumeration?_eq_some_iff {entity : Entity} {name : String} {e : Enumeration} :
    entity.enumeration? = some (name, e) ↔ entity = .enumeration e ∧ e.name = name := by
  cases entity with
  | blueprint b => simp [enumeration?]
  | enumeration e' =>
      rw [enumeration?, Option.some.injEq, Prod.mk.injEq, Entity.enumeration.injEq]
      exact ⟨fun ⟨hname, he⟩ => ⟨he, he ▸ hname⟩, fun ⟨he, hname⟩ => ⟨he ▸ hname, he⟩⟩

end Entity

namespace Registry

/-- Every registered constructor is one of the two of this library. -/
def Standard (r : Registry) : Prop :=
  ∀ tag constructor, r.constructor? tag = some constructor →
    constructor = Constructor.blueprint ∨ constructor = Constructor.enumeration

theorem standard_simos : simos.Standard := by
  intro tag constructor h
  rw [constructor?, simos, register, register, OrderedMap.get?_insert, OrderedMap.get?_insert,
    empty, OrderedMap.get?_empty] at h
  split at h
  · exact .inr (Option.some.inj h).symm
  · split at h
    · exact .inl (Option.some.inj h).symm
    · exact nomatch h

/-- What a constructor of a standard registry builds belongs to the package it is built for. -/
theorem Standard.package_eq {r : Registry} (h : r.Standard) {tag : String}
    {constructor : Constructor} (hget : r.constructor? tag = some constructor) {d : Definition}
    {id : PackageId} {entity : Entity} (hbuilt : constructor d id = .ok entity) :
    entity.package = id := by
  rcases h tag constructor hget with rfl | rfl
  · rw [Constructor.blueprint] at hbuilt
    split at hbuilt
    · next b hb =>
      obtain rfl := Except.ok.inj hbuilt
      exact (Blueprint.ofDefinition_eq_ok_iff.mp hb).package
    · exact nomatch hbuilt
  · rw [Constructor.enumeration] at hbuilt
    split at hbuilt
    · next e he =>
      obtain rfl := Except.ok.inj hbuilt
      exact (Enumeration.ofDefinition_eq_ok_iff.mp he).package
    · exact nomatch hbuilt

end Registry

/-! ## Packages -/

namespace PackageSource

variable {s : PackageSource} {registry : Registry} {id : PackageId}

theorem Yields.package_eq (hstandard : registry.Standard) {d : Definition} {entity : Entity}
    (h : s.Yields registry id d (.ok entity)) : entity.package = id := by
  generalize houtcome : Except.ok entity = outcome at h
  cases h with
  | badType | unknownAlias | unknownTag => exact nomatch houtcome
  | constructed htag hsome => exact hstandard.package_eq hsome houtcome.symm

/-- Every entity that is filed in a package is one that a definition of it yields. -/
theorem BuildsTo.exists_yields {node : PackageNode} (h : s.BuildsTo registry id node) :
    (∀ name b, node.blueprints.get? name = some b →
      b.name = name ∧ ∃ d ∈ s.definitions, s.Yields registry id d (.ok (.blueprint b))) ∧
    (∀ name e, node.enumerations.get? name = some e →
      e.name = name ∧ ∃ d ∈ s.definitions, s.Yields registry id d (.ok (.enumeration e))) := by
  obtain ⟨entities, hall, hblueprints, henumerations⟩ := h.entities
  have hmem : ∀ entity ∈ entities, ∃ d ∈ s.definitions, s.Yields registry id d (.ok entity) := by
    intro entity hentity
    obtain ⟨i, hi, rfl⟩ := List.mem_iff_getElem.mp hentity
    have hi' : i < s.definitions.length := hall.length_eq ▸ hi
    exact ⟨_, List.getElem_mem hi', hall.get hi' hi⟩
  constructor
  · intro name b hget
    rw [hblueprints] at hget
    obtain ⟨entity, hentity, hkind⟩ := List.mem_filterMap.mp (OrderedMap.mem_of_get?_ofList hget)
    obtain ⟨rfl, hname⟩ := Entity.blueprint?_eq_some_iff.mp hkind
    exact ⟨hname, hmem _ hentity⟩
  · intro name e hget
    rw [henumerations] at hget
    obtain ⟨entity, hentity, hkind⟩ := List.mem_filterMap.mp (OrderedMap.mem_of_get?_ofList hget)
    obtain ⟨rfl, hname⟩ := Entity.enumeration?_eq_some_iff.mp hkind
    exact ⟨hname, hmem _ hentity⟩

end PackageSource

/-! ## Trees -/

namespace PackageTree

/-- Every entity of a tree is filed under its own name and knows the package it is filed in. -/
structure Filed (t : PackageTree) : Prop where
  blueprint : ∀ {i : Nat} {node : PackageNode} {name : String} {b : Blueprint},
    t.nodes[i]? = some node → node.blueprints.get? name = some b → b.name = name ∧ b.package = i
  enumeration : ∀ {i : Nat} {node : PackageNode} {name : String} {e : Enumeration},
    t.nodes[i]? = some node → node.enumerations.get? name = some e → e.name = name ∧ e.package = i

theorem filed_of_toTree {registry : Registry} (hstandard : registry.Standard)
    {system : SystemLink PackageTree} {stamp : Nat} {source : SourceTree} {t : PackageTree}
    (h : source.toTree registry system stamp = .ok t) : t.Filed where
  blueprint := by
    intro i node name b hi hget
    obtain ⟨p, sub, -, hnode⟩ := SourceTree.exists_hasNode_of_node h hi
    obtain ⟨hname, d, -, hyields⟩ := hnode.builds.exists_yields.1 name b hget
    exact ⟨hname, hyields.package_eq hstandard⟩
  enumeration := by
    intro i node name e hi hget
    obtain ⟨p, sub, -, hnode⟩ := SourceTree.exists_hasNode_of_node h hi
    obtain ⟨hname, d, -, hyields⟩ := hnode.builds.exists_yields.2 name e hget
    exact ⟨hname, hyields.package_eq hstandard⟩

/-- Built from sources, whatever they are, with the constructors of this library. -/
def Standard (t : PackageTree) : Prop :=
  ∃ registry system stamp source, registry.Standard ∧
    SourceTree.toTree registry system stamp source = .ok t

theorem Standard.filed {t : PackageTree} (h : t.Standard) : t.Filed := by
  obtain ⟨registry, system, stamp, source, hstandard, htree⟩ := h
  exact filed_of_toTree hstandard htree

theorem standard_bundled : SystemPackage.bundled.Standard :=
  ⟨.simos, .own, SystemPackage.stamp, SystemPackage.source, Registry.standard_simos,
    SystemPackage.built_eq⟩

end PackageTree

end BlueprintPackages
