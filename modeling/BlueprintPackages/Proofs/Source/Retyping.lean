import BlueprintPackages.Proofs.Json.Retyping
import BlueprintPackages.Proofs.Source.Growing
import BlueprintPackages.Proofs.Tree.Filing

/-!
# Definitions with another type

The type of a definition picks a constructor and is not looked at again: a constructor of this
library builds from a definition with another type the entity that it builds from the definition
itself, but for the type in its content (`Registry.Standard.retype`).

In a source tree the definitions of some files are retyped (`SourceTree.retype`). As long as each of
them keeps its tag, every package is built as before, or fails with the error that it fails with
before, and a tree is built that is the same but for the types of these entities
(`SourceTree.toTree_retype`).
-/

namespace BlueprintPackages

/-! ## Entities -/

namespace Definition

variable {key : String} (type : String) (d : Definition)

def retype : Definition := { d with content := Json.retypeMembers type d.content }

theorem get?_retype (hkey : key ≠ "type") : (d.retype type).get? key = d.get? key :=
  Json.lookup_retypeMembers_of_ne hkey d.content

theorem requiredText_retype (hkey : key ≠ "type") :
    (d.retype type).requiredText key = d.requiredText key := by
  rw [requiredText, d.get?_retype type hkey]
  rfl

theorem optionalText_retype (hkey : key ≠ "type") :
    (d.retype type).optionalText key = d.optionalText key := by
  rw [optionalText, d.get?_retype type hkey]
  rfl

theorem items_retype (hkey : key ≠ "type") : (d.retype type).items key = d.items key := by
  rw [items, d.get?_retype type hkey]
  rfl

theorem requiredText_type_retype (hne : type ≠ "") :
    (d.retype type).requiredText "type" = .ok type := by
  have hget : (d.retype type).get? "type" = some (.string type) :=
    Json.lookup_retypeMembers_type d.content
  simp only [requiredText, hget, if_neg hne]

end Definition

namespace Blueprint

def retype (type : String) (b : Blueprint) : Blueprint :=
  { b with content := Json.retypeMembers type b.content }

theorem ofDefinition_retype (type : String) (d : Definition) (id : PackageId) :
    ofDefinition (d.retype type) id = (ofDefinition d id).map (retype type) := by
  show ofDefinition (d.retype type) id = retype type <$> ofDefinition d id
  have hname : (d.retype type).requiredText "name" = d.requiredText "name" :=
    d.requiredText_retype type (by decide)
  have hdescription : (d.retype type).optionalText "description" = d.optionalText "description" :=
    d.optionalText_retype type (by decide)
  have hextends : (d.retype type).items "extends" = d.items "extends" :=
    d.items_retype type (by decide)
  have hattributes : (d.retype type).items "attributes" = d.items "attributes" :=
    d.items_retype type (by decide)
  simp only [ofDefinition, hname, hdescription, hextends, hattributes, map_bind, map_pure]
  rfl

end Blueprint

namespace Enumeration

def retype (type : String) (e : Enumeration) : Enumeration :=
  { e with content := Json.retypeMembers type e.content }

theorem ofDefinition_retype (type : String) (d : Definition) (id : PackageId) :
    ofDefinition (d.retype type) id = (ofDefinition d id).map (retype type) := by
  show ofDefinition (d.retype type) id = retype type <$> ofDefinition d id
  have hname : (d.retype type).requiredText "name" = d.requiredText "name" :=
    d.requiredText_retype type (by decide)
  have hdescription : (d.retype type).optionalText "description" = d.optionalText "description" :=
    d.optionalText_retype type (by decide)
  simp only [ofDefinition, hname, hdescription, map_bind, map_pure]
  rfl

end Enumeration

namespace Entity

def content : Entity → Members
  | blueprint b => b.content
  | enumeration e => e.content

def retype (type : String) : Entity → Entity
  | blueprint b => blueprint (b.retype type)
  | enumeration e => enumeration (e.retype type)

end Entity

/-- A constructor of a standard registry does not look at the type. -/
theorem Registry.Standard.retype {registry : Registry} (h : registry.Standard) {tag : String}
    {constructor : Constructor} (hget : registry.constructor? tag = some constructor)
    (type : String) (d : Definition) (id : PackageId) :
    constructor (d.retype type) id = (constructor d id).map (Entity.retype type) := by
  rcases h tag constructor hget with rfl | rfl
  · rw [Constructor.blueprint, Constructor.blueprint, Blueprint.ofDefinition_retype]
    cases Blueprint.ofDefinition d id <;> rfl
  · rw [Constructor.enumeration, Constructor.enumeration, Enumeration.ofDefinition_retype]
    cases Enumeration.ofDefinition d id <;> rfl

theorem Registry.Standard.content_eq {registry : Registry} (h : registry.Standard) {tag : String}
    {constructor : Constructor} (hget : registry.constructor? tag = some constructor)
    {d : Definition} {id : PackageId} {entity : Entity} (hbuilt : constructor d id = .ok entity) :
    entity.content = d.content := by
  rcases h tag constructor hget with rfl | rfl
  · rw [Constructor.blueprint] at hbuilt
    split at hbuilt
    · next b hb =>
      obtain rfl := Except.ok.inj hbuilt
      exact (Blueprint.ofDefinition_eq_ok_iff.mp hb).content
    · cases hbuilt
  · rw [Constructor.enumeration] at hbuilt
    split at hbuilt
    · next e he =>
      obtain rfl := Except.ok.inj hbuilt
      exact (Enumeration.ofDefinition_eq_ok_iff.mp he).content
    · cases hbuilt

theorem PackageSource.Yields.content_eq {s : PackageSource} {registry : Registry}
    (hstandard : registry.Standard) {id : PackageId} {d : Definition} {entity : Entity}
    (h : s.Yields registry id d (.ok entity)) : entity.content = d.content := by
  generalize houtcome : Except.ok entity = outcome at h
  cases h with
  | badType | unknownAlias | unknownTag => exact nomatch houtcome
  | constructed htag hsome => exact hstandard.content_eq hsome houtcome.symm

/-! ## The same but for types -/

/-- The same blueprint, or else the content is that of a text and has another type. -/
def Blueprint.Retyped (text type : String) (b b' : Blueprint) : Prop :=
  b' = b ∨ Json.ofText text = .ok (.object b.content) ∧ b' = b.retype type

def Enumeration.Retyped (text type : String) (e e' : Enumeration) : Prop :=
  e' = e ∨ Json.ofText text = .ok (.object e.content) ∧ e' = e.retype type

def Entity.Retyped (text type : String) (e e' : Entity) : Prop :=
  e' = e ∨ Json.ofText text = .ok (.object e.content) ∧ e' = e.retype type

/-- The same node, but that entities with the content of a text may have another type. -/
structure PackageNode.Retyped (text type : String) (node node' : PackageNode) : Prop where
  name : node'.name = node.name
  directory : node'.directory = node.directory
  version : node'.version = node.version
  aliases : node'.aliases = node.aliases
  parent : node'.parent = node.parent
  blueprints : node.blueprints.Related (Blueprint.Retyped text type) node'.blueprints
  enumerations : node.enumerations.Related (Enumeration.Retyped text type) node'.enumerations
  subpackages : node'.subpackages = node.subpackages

/-- The same tree, but that entities with the content of a text may have another type. -/
structure PackageTree.Retyped (text type : String) (t t' : PackageTree) : Prop where
  stamp : t'.stamp = t.stamp
  system : t'.system = t.system
  nodes : List.Forall₂ (PackageNode.Retyped text type) t.nodes t'.nodes

theorem Entity.Retyped.forall₂_blueprints {text type : String} {es es' : List Entity}
    (h : List.Forall₂ (Entity.Retyped text type) es es') :
    List.Forall₂ (fun p p' => p.1 = p'.1 ∧ Blueprint.Retyped text type p.2 p'.2)
      (es.filterMap Entity.blueprint?) (es'.filterMap Entity.blueprint?) := by
  refine List.rel_filterMap ?_ h
  intro e e' he
  cases e with
  | blueprint b =>
      obtain rfl | ⟨hcontent, rfl⟩ := he
      · exact .some ⟨rfl, .inl rfl⟩
      · exact .some ⟨rfl, .inr ⟨hcontent, rfl⟩⟩
  | enumeration e =>
      obtain rfl | ⟨-, rfl⟩ := he
      · exact .none
      · exact .none

theorem Entity.Retyped.forall₂_enumerations {text type : String} {es es' : List Entity}
    (h : List.Forall₂ (Entity.Retyped text type) es es') :
    List.Forall₂ (fun p p' => p.1 = p'.1 ∧ Enumeration.Retyped text type p.2 p'.2)
      (es.filterMap Entity.enumeration?) (es'.filterMap Entity.enumeration?) := by
  refine List.rel_filterMap ?_ h
  intro e e' he
  cases e with
  | blueprint b =>
      obtain rfl | ⟨-, rfl⟩ := he
      · exact .none
      · exact .none
  | enumeration e =>
      obtain rfl | ⟨hcontent, rfl⟩ := he
      · exact .some ⟨rfl, .inl rfl⟩
      · exact .some ⟨rfl, .inr ⟨hcontent, rfl⟩⟩

/-- The contents of all entities of a package. -/
def PackageNode.contents (node : PackageNode) : List Members :=
  node.blueprints.values.map Blueprint.content ++ node.enumerations.values.map Enumeration.content

/-- The content of an entity is that of a definition. -/
theorem PackageSource.BuildsTo.exists_of_mem_contents {s : PackageSource} {registry : Registry}
    (hstandard : registry.Standard) {id : PackageId} {node : PackageNode}
    (h : s.BuildsTo registry id node) {content : Members} (hcontent : content ∈ node.contents) :
    ∃ d ∈ s.definitions, d.content = content := by
  rw [PackageNode.contents, List.mem_append, List.mem_map, List.mem_map] at hcontent
  obtain ⟨b, hb, rfl⟩ | ⟨e, he, rfl⟩ := hcontent
  · obtain ⟨name, hget⟩ := OrderedMap.mem_values_iff.mp hb
    obtain ⟨-, d, hd, hyields⟩ := h.exists_yields.1 name b hget
    exact ⟨d, hd, (hyields.content_eq hstandard).symm⟩
  · obtain ⟨name, hget⟩ := OrderedMap.mem_values_iff.mp he
    obtain ⟨-, d, hd, hyields⟩ := h.exists_yields.2 name e hget
    exact ⟨d, hd, (hyields.content_eq hstandard).symm⟩

/-! ## Sources -/

variable (changed : String → Bool) (text type : String)

/-- A definition, retyped if the file that it is from has changed. -/
def Definition.retypeIf (d : Definition) : Definition :=
  if changed d.context then d.retype type else d

/-- A version table, retyped like any object if the file that it is from has changed. -/
def VersionTable.retypeIf (table : VersionTable) : VersionTable :=
  if changed table.context then { table with entries := Json.retypeMembers type table.entries }
  else table

namespace PackageSource

def retype (s : PackageSource) : PackageSource :=
  { s with
    versions := s.versions.map (VersionTable.retypeIf changed type)
    definitions := s.definitions.map (Definition.retypeIf changed type) }

/-- What is from a changed file holds what the file held, and keeps its meaning with the new type:
a definition has the tag that it had, and a version table has no version under the key `type`. -/
structure Retypable (s : PackageSource) : Prop where
  content : ∀ d ∈ s.definitions, changed d.context → Json.ofText text = .ok (.object d.content)
  tag : ∀ d ∈ s.definitions, changed d.context → s.tagOf (d.retype type) = s.tagOf d
  versions : ∀ table, s.versions = some table → changed table.context →
    ∃ old, table.entries.lookup "type" = some (.string old)

variable {changed text type} {s : PackageSource} {registry : Registry} {id : PackageId}
  {parent : Option PackageId}

theorem version_retype (h : s.Retypable changed text type) :
    (s.retype changed type).version = s.version := by
  have hname : (s.retype changed type).name = s.name := rfl
  rw [version, version, hname]
  cases htable : s.versions with
  | none => rw [retype, htable]; rfl
  | some table =>
      have hversion : (table.retypeIf changed type).version? s.name = table.version? s.name := by
        rw [VersionTable.retypeIf]
        split
        · next hchanged =>
          obtain ⟨old, hold⟩ := h.versions table htable hchanged
          rw [VersionTable.version?, VersionTable.version?]
          -- a package may be called `type`: its entry is a text, no version, before and after
          by_cases hname : s.name = "type"
          · rw [hname, hold, Json.lookup_retypeMembers_type]
          · rw [Json.lookup_retypeMembers_of_ne hname]
        · rfl
      simp only [retype, htable, Option.map_some, hversion]

/-- The entity of a retyped definition is the old one, retyped. -/
theorem entityOf_retype (hstandard : registry.Standard) (h : s.Retypable changed text type)
    {d : Definition} (hd : d ∈ s.definitions) :
    Fallible.Agree (Entity.Retyped text type) (s.entityOf registry id d)
      ((s.retype changed type).entityOf registry id (d.retypeIf changed type)) := by
  have hsource : ∀ d, (s.retype changed type).entityOf registry id d = s.entityOf registry id d :=
    fun _ => rfl
  rw [hsource, Definition.retypeIf]
  split
  · next hchanged =>
    rw [entityOf, entityOf, h.tag d hd hchanged]
    cases htag : s.tagOf d with
    | error error => exact .error error
    | ok tag =>
        simp only [bind, Except.bind, Registry.construct]
        cases hconstructor : registry.constructor? tag with
        | none => exact .error _
        | some constructor =>
            simp only [hstandard.retype hconstructor]
            cases hentity : constructor d id with
            | error error => exact .error error
            | ok entity =>
                refine .ok (.inr ⟨?_, rfl⟩)
                rw [hstandard.content_eq hconstructor hentity]
                exact h.content d hd hchanged
  · exact .of_eq rfl fun _ => .inl rfl

/-- The package is built as before, but for the types. -/
theorem toNode_retype (hstandard : registry.Standard) (h : s.Retypable changed text type) :
    Fallible.Agree (PackageNode.Retyped text type) (s.toNode registry id parent)
      ((s.retype changed type).toNode registry id parent) := by
  rw [toNode, toNode, version_retype h, entitiesOf_eq_mapM, entitiesOf_eq_mapM]
  refine (Fallible.Agree.of_eq (R := Eq) rfl fun _ => rfl).bind ?_
  rintro version _ rfl
  have hdefinitions : List.Forall₂ (fun d d' => d ∈ s.definitions ∧ d' = d.retypeIf changed type)
      s.definitions (s.retype changed type).definitions := by
    rw [retype, List.forall₂_map_right_iff, List.forall₂_same]
    exact fun d hd => ⟨hd, rfl⟩
  have hentities := Fallible.Agree.mapM hdefinitions
    (f := s.entityOf registry id) (g := (s.retype changed type).entityOf registry id)
    (S := Entity.Retyped text type) fun d d' hboth =>
      hboth.2 ▸ entityOf_retype hstandard h hboth.1
  refine hentities.bind fun entities entities' hall => .ok ?_
  exact {
    name := rfl
    directory := rfl
    version := rfl
    aliases := rfl
    parent := rfl
    blueprints := .ofList (Entity.Retyped.forall₂_blueprints hall)
    enumerations := .ofList (Entity.Retyped.forall₂_enumerations hall)
    subpackages := rfl }

/-- A package with no definition from a changed file is built to the very same node. -/
theorem toNode_retype_of_unchanged (h : s.Retypable changed text type)
    (hunchanged : ∀ d ∈ s.definitions, ¬ changed d.context) :
    (s.retype changed type).toNode registry id parent = s.toNode registry id parent := by
  have hdefinitions : (s.retype changed type).definitions = s.definitions := by
    have hsame : s.definitions.map (Definition.retypeIf changed type) =
        s.definitions.map fun d => d :=
      List.map_congr_left fun d hd => if_neg (hunchanged d hd)
    exact hsame.trans s.definitions.map_id'
  have hentities : (s.retype changed type).entityOf registry id = s.entityOf registry id := rfl
  rw [toNode, toNode, version_retype h, hdefinitions, entitiesOf_eq_mapM, entitiesOf_eq_mapM,
    hentities]
  rfl

end PackageSource

/-! ## Source trees -/

namespace SourceTree

mutual

/-- The same tree with everything retyped that is from a changed file. -/
def retype (changed : String → Bool) (type : String) : SourceTree → SourceTree
  | node source children => node (source.retype changed type) (retypeAll changed type children)
termination_by structural tree => tree

def retypeAll (changed : String → Bool) (type : String) : List SourceTree → List SourceTree
  | [] => []
  | c :: rest => retype changed type c :: retypeAll changed type rest
termination_by structural trees => trees

end

variable {changed text type} {registry : Registry} {system : SystemLink PackageTree} {stamp : Nat}
  {t : SourceTree}

theorem retypeAll_eq_map (children : List SourceTree) :
    retypeAll changed type children = children.map (retype changed type) := by
  induction children with
  | nil => rfl
  | cons c rest ih => rw [retypeAll, ih, List.map_cons]

theorem name_retype (t : SourceTree) : (t.retype changed type).source.name = t.source.name := by
  obtain ⟨source, children⟩ := t
  rw [retype]
  rfl

theorem placesFrom_retype {children : List SourceTree}
    (h : ∀ c ∈ children, (c.retype changed type).places = c.places) (first : Nat) :
    placesFrom first (children.map (retype changed type)) = placesFrom first children := by
  induction children generalizing first with
  | nil => rfl
  | cons c rest ih =>
      rw [List.forall_mem_cons] at h
      rw [List.map_cons, placesFrom, placesFrom, h.1, ih h.2]

theorem places_retype (t : SourceTree) : (t.retype changed type).places = t.places := by
  induction t using induction with
  | node source children ih =>
      rw [retype, retypeAll_eq_map, places, places, placesFrom_retype ih]

theorem size_retype (t : SourceTree) : (t.retype changed type).size = t.size := by
  rw [size, size, places_retype]

/-! ### Rows -/

/-- The same row of the tree that is retyped. -/
def Row.retype (changed : String → Bool) (type : String) (row : Row) : Row :=
  { row with source := row.source.retype changed type }

theorem numbered_retype (next : PackageId) (children : List SourceTree) :
    numbered next (children.map (retype changed type)) = numbered next children := by
  induction children generalizing next with
  | nil => rfl
  | cons c rest ih => rw [List.map_cons, numbered, numbered, name_retype, size_retype, ih]

theorem rowsOfAll_retype {children : List SourceTree}
    (h : ∀ c ∈ children, ∀ id parent,
      rows id parent (c.retype changed type) = (rows id parent c).map (Row.retype changed type))
    (parent next : PackageId) :
    rowsOfAll parent next (children.map (retype changed type)) =
      (rowsOfAll parent next children).map (Row.retype changed type) := by
  induction children generalizing next with
  | nil => rfl
  | cons c rest ih =>
      rw [List.forall_mem_cons] at h
      rw [List.map_cons, rowsOfAll, rowsOfAll, h.1, ih h.2, size_retype, List.map_append]

/-- Row by row the sources are retyped and nothing else. -/
theorem rows_retype (t : SourceTree) (id : PackageId) (parent : Option PackageId) :
    rows id parent (t.retype changed type) = (rows id parent t).map (Row.retype changed type) := by
  induction t using induction generalizing id parent with
  | node source children ih =>
      rw [retype, retypeAll_eq_map, rows, rows, numbered_retype, rowsOfAll_retype ih]
      rfl

theorem Row.build_retype (hstandard : registry.Standard) {row : Row}
    (h : row.source.Retypable changed text type) :
    Fallible.Agree (PackageNode.Retyped text type) (row.build registry)
      ((row.retype changed type).build registry) := by
  rw [build, build]
  refine (PackageSource.toNode_retype hstandard h).bind fun node node' hnode => .ok ?_
  exact { hnode with subpackages := rfl }

/-! ### Trees -/

/-- Everything in the tree that is from a changed file can be retyped. -/
def Retypable (t : SourceTree) (changed : String → Bool) (text type : String) : Prop :=
  ∀ p sub, t.at? p = some sub → sub.source.Retypable changed text type

theorem Retypable.of_mem_rows (h : t.Retypable changed text type) {row : Row}
    (hrow : row ∈ rows rootId none t) : row.source.Retypable changed text type := by
  obtain ⟨i, hi⟩ := List.mem_iff_getElem?.mp hrow
  obtain ⟨p, sub, hpackage⟩ := exists_hasPackage_of_row hi
  obtain rfl := Option.some.inj (hpackage.row.symm.trans hi)
  exact h p sub hpackage.tree

/-- A tree is built as before, but for the types, or fails as before. -/
theorem toTree_retype (hstandard : registry.Standard) (h : t.Retypable changed text type) :
    Fallible.Agree (PackageTree.Retyped text type) (t.toTree registry system stamp)
      ((t.retype changed type).toTree registry system stamp) := by
  have hrows : List.Forall₂
      (fun row row' => row ∈ rows rootId none t ∧ row' = row.retype changed type)
      (rows rootId none t) (rows rootId none (t.retype changed type)) := by
    rw [rows_retype, List.forall₂_map_right_iff, List.forall₂_same]
    exact fun row hrow => ⟨hrow, rfl⟩
  have hnodes := Fallible.Agree.mapM hrows (f := Row.build registry) (g := Row.build registry)
    (S := PackageNode.Retyped text type) fun row row' ⟨hrow, hrow'⟩ =>
      hrow' ▸ Row.build_retype hstandard (h.of_mem_rows hrow)
  cases htree : t.toTree registry system stamp with
  | error error =>
      rw [toTree_eq_error_iff_mapM_rows.mp htree] at hnodes
      rw [toTree_eq_error_iff_mapM_rows.mpr hnodes.eq_error]
      exact .error error
  | ok tree =>
      obtain ⟨hstamp, hsystem, hbuild⟩ := toTree_eq_ok_iff_mapM_rows.mp htree
      rw [hbuild] at hnodes
      obtain ⟨nodes', hbuild', hall⟩ := hnodes.exists_ok
      obtain ⟨top', others', -, -, rfl⟩ := List.forall₂_cons_left_iff.mp hall
      let tree' : PackageTree := { stamp, top := top', others := others', system }
      have htree' : (t.retype changed type).toTree registry system stamp = .ok tree' :=
        toTree_eq_ok_iff_mapM_rows.mpr ⟨rfl, rfl, hbuild'⟩
      rw [htree']
      exact .ok ⟨hstamp.symm, hsystem.symm, hall⟩

/-- In the tree that is retyped a package is built from its retyped row. -/
theorem HasPackage.node_retype {tree' : PackageTree}
    (htree' : (t.retype changed type).toTree registry system stamp = .ok tree') {i : Nat}
    {p : Place} {sub : SourceTree} (hpackage : t.HasPackage i p sub) :
    ∃ node', tree'.nodes[i]? = some node' ∧
      (Row.retype changed type ⟨i, sub.source, t.parentNumber p, t.subpackageNumbers p sub⟩).build
        registry = .ok node' := by
  obtain ⟨-, -, hbuild'⟩ := toTree_eq_ok_iff_mapM_rows.mp htree'
  refine (Fallible.mapM_eq_ok_iff_getElem?.mp hbuild').2 i _ ?_
  rw [rows_retype, List.getElem?_map, hpackage.row, Option.map_some]

/-- In both trees a package with no definition from a changed file has the very same node. -/
theorem nodes_retype_of_unchanged (h : t.Retypable changed text type) {tree tree' : PackageTree}
    (htree : t.toTree registry system stamp = .ok tree)
    (htree' : (t.retype changed type).toTree registry system stamp = .ok tree') {i : Nat}
    {p : Place} {sub : SourceTree} (hpackage : t.HasPackage i p sub)
    (hunchanged : ∀ d ∈ sub.source.definitions, ¬ changed d.context) :
    tree'.nodes[i]? = tree.nodes[i]? := by
  obtain ⟨node, hnode, hhas⟩ := hpackage.node htree
  obtain ⟨node', hnode', hrow'⟩ := hpackage.node_retype htree'
  have hsame : node' = node := by
    have hrow := (hpackage.build_row_eq_ok_iff hpackage.row).mpr hhas
    rw [Row.build, Row.retype, PackageSource.toNode_retype_of_unchanged (h p sub hpackage.tree)
      hunchanged] at hrow'
    exact Except.ok.inj (hrow'.symm.trans hrow)
  rw [hnode, hnode', hsame]

/-- In the tree that is retyped the contents of entities are those of retyped definitions. -/
theorem exists_definition_of_retype (hstandard : registry.Standard) {tree' : PackageTree}
    (htree' : (t.retype changed type).toTree registry system stamp = .ok tree') {i : Nat}
    {p : Place} {sub : SourceTree} (hpackage : t.HasPackage i p sub) {node' : PackageNode}
    (hnode' : tree'.nodes[i]? = some node') {content : Members}
    (hcontent : content ∈ node'.contents) :
    ∃ d ∈ sub.source.definitions, (d.retypeIf changed type).content = content := by
  obtain ⟨_, hget, hrow⟩ := hpackage.node_retype htree'
  obtain rfl := Option.some.inj (hnode'.symm.trans hget)
  obtain ⟨d', hd', rfl⟩ := (Row.build_eq_ok_iff.mp hrow).1.exists_of_mem_contents hstandard hcontent
  obtain ⟨d, hd, rfl⟩ := List.mem_map.mp hd'
  exact ⟨d, hd, rfl⟩

end SourceTree

end BlueprintPackages
