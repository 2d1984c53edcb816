import BlueprintPackages.Proofs.Address.Outcome
import BlueprintPackages.Proofs.Definition.Fields
import BlueprintPackages.Proofs.Source.Retyping

/-!
# Types and constructors

The type in the content of an entity tells how it was built. Its package expands it once, by its own
aliases, to a tag, and the registry has for this tag the constructor of the entity's kind
(`Package.blueprint_typed`, `Package.enumeration_typed`). The constructors of this library are told
apart by what they build (`Registry.Standard.constructor_eq`), so the two standard tags can be told
from the kinds: `eq_blueprintType` and `eq_enumType`.
-/

namespace BlueprintPackages

/-! ## Kinds of constructors -/

namespace Entity

/-- The constructor that builds entities of this kind. -/
def constructor : Entity → Constructor
  | blueprint _ => Constructor.blueprint
  | enumeration _ => Constructor.enumeration

end Entity

theorem Constructor.blueprint_ne_enumeration : blueprint ≠ enumeration := by
  intro hsame
  have hbuilt := congrFun (congrFun hsame ⟨"", [("name", .string "a")]⟩) 0
  exact nomatch (Except.ok.inj hbuilt : Entity.blueprint _ = Entity.enumeration _)

namespace Registry

/-- A standard registry builds blueprints with the constructor of blueprints, and enumerations with
that of enumerations. -/
theorem Standard.constructor_eq {r : Registry} (h : r.Standard) {tag : String}
    {constructor : Constructor} (hget : r.constructor? tag = some constructor) {d : Definition}
    {id : PackageId} {entity : Entity} (hbuilt : constructor d id = .ok entity) :
    constructor = entity.constructor := by
  rcases h tag constructor hget with rfl | rfl
  · rw [Constructor.blueprint] at hbuilt
    split at hbuilt
    · exact Except.ok.inj hbuilt ▸ rfl
    · cases hbuilt
  · rw [Constructor.enumeration] at hbuilt
    split at hbuilt
    · exact Except.ok.inj hbuilt ▸ rfl
    · cases hbuilt

theorem constructor?_simos (tag : String) :
    simos.constructor? tag =
      if tag = enumType then some .enumeration
      else if tag = blueprintType then some .blueprint else none := by
  rw [constructor?, simos, register, register, OrderedMap.get?_insert, OrderedMap.get?_insert,
    empty, OrderedMap.get?_empty]

theorem eq_blueprintType {tag : String} (h : simos.constructor? tag = some .blueprint) :
    tag = blueprintType := by
  rw [constructor?_simos] at h
  split at h
  · exact absurd (Option.some.inj h).symm Constructor.blueprint_ne_enumeration
  · split at h
    · assumption
    · exact nomatch h

theorem eq_enumType {tag : String} (h : simos.constructor? tag = some .enumeration) :
    tag = enumType := by
  rw [constructor?_simos] at h
  split at h
  · assumption
  · split at h
    · exact absurd (Option.some.inj h) Constructor.blueprint_ne_enumeration
    · exact nomatch h

end Registry

/-! ## Types of entities -/

/-- The content has a type that the package expands to a tag with the given constructor. -/
structure Package.Typed (p : Package) (registry : Registry) (content : Members)
    (constructor : Constructor) (type tag : String) : Prop where
  lookup : content.lookup "type" = some (.string type)
  ne : type ≠ ""
  expands : p.Expands type tag
  registered : registry.constructor? tag = some constructor

/-- A definition that yields an entity has been dispatched by the aliases of its package. -/
theorem PackageSource.Yields.exists_constructor {s : PackageSource} {registry : Registry}
    {id : PackageId} {d : Definition} {entity : Entity} (h : s.Yields registry id d (.ok entity))
    {p : Package} (haliases : p.node.aliases = s.aliases) :
    ∃ type tag constructor, p.Typed registry d.content constructor type tag ∧
      constructor d id = .ok entity := by
  generalize houtcome : Except.ok entity = outcome at h
  cases h with
  | badType | unknownAlias | unknownTag => exact nomatch houtcome
  | @constructed tag constructor htag hsome =>
      cases htag with
      | plain htype hsplit =>
          obtain ⟨hget, hne⟩ := Definition.requiredText_eq_ok_iff.mp htype
          exact ⟨tag, tag, constructor,
            ⟨hget, hne, .plain (Address.split?_eq_none_iff.mp hsplit), hsome⟩, rfl⟩
      | @expanded type aliasName rest address htype hsplit halias =>
          obtain ⟨hget, hne⟩ := Definition.requiredText_eq_ok_iff.mp htype
          have halias' : p.alias? aliasName = some address := by
            rw [Package.alias?, haliases, halias]
          exact ⟨type, _, constructor,
            ⟨hget, hne, .expanded (Address.split?_eq_some_iff.mp hsplit) halias', hsome⟩,
            rfl⟩

/-- An entity that a definition yields is typed by the definition. -/
theorem PackageSource.Yields.typed {s : PackageSource} {registry : Registry}
    (hstandard : registry.Standard) {id : PackageId} {d : Definition} {entity : Entity}
    (h : s.Yields registry id d (.ok entity)) {p : Package}
    (haliases : p.node.aliases = s.aliases) :
    ∃ type tag, p.Typed registry entity.content entity.constructor type tag := by
  obtain ⟨type, tag, constructor, htyped, hbuilt⟩ := h.exists_constructor haliases
  have hconstructor := hstandard.constructor_eq htyped.registered hbuilt
  rw [h.content_eq hstandard, ← hconstructor]
  exact ⟨type, tag, htyped⟩

namespace Package

variable {registry : Registry} {system : SystemLink PackageTree} {stamp : Nat} {source : SourceTree}
  {t : PackageTree} {p : Package}

theorem blueprint_typed (hstandard : registry.Standard)
    (h : source.toTree registry system stamp = .ok t) (hp : p.tree = t) {b : Blueprint}
    (hb : b ∈ p.blueprints) :
    ∃ type tag, p.Typed registry b.content Constructor.blueprint type tag := by
  obtain ⟨_, sub, -, hnode⟩ := SourceTree.exists_hasNode_of_node h (p.nodes_getElem? hp)
  obtain ⟨name, hget⟩ := OrderedMap.mem_values_iff.mp hb
  obtain ⟨-, d, -, hyields⟩ := hnode.builds.exists_yields.1 name b hget
  exact hyields.typed hstandard hnode.builds.aliases

theorem enumeration_typed (hstandard : registry.Standard)
    (h : source.toTree registry system stamp = .ok t) (hp : p.tree = t) {e : Enumeration}
    (he : e ∈ p.enumerations) :
    ∃ type tag, p.Typed registry e.content Constructor.enumeration type tag := by
  obtain ⟨_, sub, -, hnode⟩ := SourceTree.exists_hasNode_of_node h (p.nodes_getElem? hp)
  obtain ⟨name, hget⟩ := OrderedMap.mem_values_iff.mp he
  obtain ⟨-, d, -, hyields⟩ := hnode.builds.exists_yields.2 name e hget
  exact hyields.typed hstandard hnode.builds.aliases

end Package

end BlueprintPackages
