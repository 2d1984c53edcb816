import BlueprintPackages.Proofs.Source.Growing
import BlueprintPackages.SystemPackage

/-!
# Registries that know more

A registry `Extends` another if every tag of the other has the same constructor in it, as it has
after tags were registered that the other did not know (`extends_registerAll`).

Building asks a registry for one tag after another, and up to the first tag that is not found two
such registries give the same answers. So whatever a definition yields with the smaller registry it
yields with the greater, unless its tag is not registered in the smaller (`Yields.extend`). The same
follows for a package and for a whole tree (`SourceTree.toTree_of_extends`), with whatever
constructors there are.
-/

namespace BlueprintPackages

namespace Registry

variable {r r' : Registry} {tag : String} {constructor : Constructor}

/-- Every tag of the smaller registry has the same constructor in the greater. -/
def Extends (greater smaller : Registry) : Prop :=
  ∀ tag constructor, smaller.constructor? tag = some constructor →
    greater.constructor? tag = some constructor

/-- Registers constructors one after the other. -/
def registerAll (r : Registry) (entries : List (String × Constructor)) : Registry :=
  entries.foldl (fun r e => r.register e.1 e.2) r

theorem constructor?_register (r : Registry) (tag : String) (constructor : Constructor)
    (other : String) :
    (r.register tag constructor).constructor? other =
      if other = tag then some constructor else r.constructor? other :=
  OrderedMap.get?_insert r.constructors tag constructor other

theorem contains_eq_false_iff : r.contains tag = false ↔ r.constructor? tag = none :=
  Option.isSome_eq_false_iff.trans Option.isNone_iff_eq_none

theorem constructor?_registerAll {entries : List (String × Constructor)}
    (h : ∀ e ∈ entries, e.1 ≠ tag) : (r.registerAll entries).constructor? tag =
      r.constructor? tag := by
  induction entries generalizing r with
  | nil => rfl
  | cons e rest ih =>
      rw [List.forall_mem_cons] at h
      have hrest := ih h.2 (r := r.register e.1 e.2)
      rw [constructor?_register, if_neg (Ne.symm h.1)] at hrest
      exact hrest

/-- Tags that were not known before take nothing from those that were. -/
theorem extends_registerAll {entries : List (String × Constructor)}
    (h : ∀ e ∈ entries, r.contains e.1 = false) : (r.registerAll entries).Extends r := by
  intro tag constructor hknown
  have hnew : ∀ e ∈ entries, e.1 ≠ tag := by
    rintro e he rfl
    rw [contains_eq_false_iff.mp (h e he)] at hknown
    exact nomatch hknown
  rw [constructor?_registerAll hnew, hknown]

end Registry

/-! ## One package -/

namespace PackageSource

variable {s : PackageSource} {r r' : Registry} {id : PackageId} {d : Definition}

/-- The search for the tag of a definition fails: the definition has the tag, and the registry does
not. -/
structure LacksTag (s : PackageSource) (registry : Registry) (d : Definition) (tag : String) :
    Prop where
  hasTag : s.HasTag d tag
  unknown : registry.contains tag = false

/-- With a greater registry a definition yields what it yielded, unless its tag was not found. -/
theorem Yields.extend (hextends : r'.Extends r) {outcome : Except BuildError Entity}
    (h : s.Yields r id d outcome) :
    s.Yields r' id d outcome ∨
      ∃ tag, s.LacksTag r d tag ∧ outcome = .error (.unknownEntityType tag d.context) := by
  cases h with
  | badType htype => exact .inl (.badType htype)
  | unknownAlias htype hsplit halias => exact .inl (.unknownAlias htype hsplit halias)
  | @unknownTag tag htag hnone =>
      exact .inr ⟨tag, ⟨htag, Registry.contains_eq_false_iff.mpr hnone⟩, rfl⟩
  | constructed htag hsome => exact .inl (.constructed htag (hextends _ _ hsome))

theorem Yields.extend_ok (hextends : r'.Extends r) {entity : Entity}
    (h : s.Yields r id d (.ok entity)) : s.Yields r' id d (.ok entity) := by
  obtain hsame | ⟨tag, -, herror⟩ := h.extend hextends
  · exact hsame
  · exact nomatch herror

/-- A type that is not known is that of the definition itself, unless a constructor reports it. -/
theorem Yields.of_unknownEntityType {outcome : Except BuildError Entity}
    (h : s.Yields r id d outcome) {tag context : String}
    (houtcome : outcome = .error (.unknownEntityType tag context)) :
    (s.HasTag d tag ∧ r.contains tag = false ∧ d.context = context) ∨
      ∃ own constructor, s.HasTag d own ∧ r.constructor? own = some constructor ∧
        constructor d id = .error (.unknownEntityType tag context) := by
  cases h with
  | badType htype => exact nomatch houtcome
  | unknownAlias htype hsplit halias => exact nomatch houtcome
  | unknownTag htag hnone =>
      obtain ⟨rfl, rfl⟩ := BuildError.unknownEntityType.inj (Except.error.inj houtcome)
      exact .inl ⟨htag, Registry.contains_eq_false_iff.mpr hnone, rfl⟩
  | constructed htag hsome => exact .inr ⟨_, _, htag, hsome, houtcome⟩

theorem BuildsTo.extend (hextends : r'.Extends r) {node : PackageNode}
    (h : s.BuildsTo r id node) : s.BuildsTo r' id node where
  name := h.name
  directory := h.directory
  version := h.version
  aliases := h.aliases
  entities := by
    obtain ⟨entities, hall, hfiled⟩ := h.entities
    exact ⟨entities, hall.imp fun _ _ hyields => hyields.extend_ok hextends, hfiled⟩

/-- Building a package comes to a definition: the version is settled, and every definition before it
has yielded an entity. -/
inductive ComesTo (s : PackageSource) (registry : Registry) (id : PackageId) (d : Definition) : Prop
  | mk {version : Int} (before after : List Definition) (hversion : s.version = .ok version)
      (hsplit : s.definitions = before ++ d :: after)
      (hbefore : ∀ b ∈ before, ∃ entity, s.Yields registry id b (.ok entity))

theorem ComesTo.extend (hextends : r'.Extends r) (h : s.ComesTo r id d) : s.ComesTo r' id d := by
  obtain ⟨before, after, hversion, hsplit, hbefore⟩ := h
  refine ⟨before, after, hversion, hsplit, ?_⟩
  intro b hb
  obtain ⟨entity, hyields⟩ := hbefore b hb
  exact ⟨entity, hyields.extend_ok hextends⟩

theorem ComesTo.fails (h : s.ComesTo r id d) {error : BuildError}
    (hd : s.Yields r id d (.error error)) : s.Fails r id error := by
  obtain ⟨before, after, hversion, hsplit, hbefore⟩ := h
  exact .definition hversion hsplit hbefore hd

/-- A package that fails has a bad version, or building it comes to a definition that fails. -/
theorem Fails.version_or_comesTo {error : BuildError} (h : s.Fails r id error) :
    (∃ e, s.version = .error e ∧ error = .field e) ∨
      ∃ d, s.ComesTo r id d ∧ s.Yields r id d (.error error) := by
  cases h with
  | version hversion => exact .inl ⟨_, hversion, rfl⟩
  | definition hversion hsplit hbefore hd =>
      exact .inr ⟨_, ⟨_, _, hversion, hsplit, hbefore⟩, hd⟩

/-- With a greater registry a package fails as it failed, unless it failed for a tag that was not
found. -/
theorem Fails.extend (hextends : r'.Extends r) {error : BuildError} (h : s.Fails r id error) :
    s.Fails r' id error ∨ ∃ d tag, s.ComesTo r id d ∧ s.LacksTag r d tag ∧
      error = .unknownEntityType tag d.context := by
  obtain ⟨e, hversion, rfl⟩ | ⟨d, hcomes, hd⟩ := h.version_or_comesTo
  · exact .inl (.version hversion)
  · obtain hsame | ⟨tag, hlacks, herror⟩ := hd.extend hextends
    · exact .inl ((hcomes.extend hextends).fails hsame)
    · exact .inr ⟨d, tag, hcomes, hlacks, Except.error.inj herror⟩

end PackageSource

/-! ## Whole trees -/

namespace SourceTree

variable {t : SourceTree} {r r' : Registry} {system : SystemLink PackageTree} {stamp : Nat}

/-- Building a tree comes to a package: all packages of smaller numbers are built. -/
structure ComesTo (t : SourceTree) (registry : Registry) (i : Nat) (sub : SourceTree) : Prop where
  package : ∃ p, t.HasPackage i p sub
  earlier : ∀ j q other, j < i → t.HasPackage j q other →
    ∃ node, other.source.BuildsTo registry j node

theorem ComesTo.extend (hextends : r'.Extends r) {i : Nat} {sub : SourceTree}
    (h : t.ComesTo r i sub) : t.ComesTo r' i sub where
  package := h.package
  earlier := by
    intro j q other hj hother
    obtain ⟨node, hbuilds⟩ := h.earlier j q other hj hother
    exact ⟨node, hbuilds.extend hextends⟩

/-- A tree fails as the package that building it comes to. -/
theorem toTree_eq_error_iff_comesTo {error : BuildError} :
    t.toTree r system stamp = .error error ↔
      ∃ i sub, t.ComesTo r i sub ∧ sub.source.Fails r i error := by
  rw [toTree_eq_error_iff]
  constructor
  · rintro ⟨i, p, sub, hpackage, hfails, hearlier⟩
    refine ⟨i, sub, ⟨⟨p, hpackage⟩, fun j q other hj hother => ?_⟩, hfails⟩
    obtain ⟨node, hnode⟩ := hearlier j q other hj hother
    exact ⟨node, hnode.builds⟩
  · rintro ⟨i, sub, ⟨⟨p, hpackage⟩, hearlier⟩, hfails⟩
    refine ⟨i, p, sub, hpackage, hfails, fun j q other hj hother => ?_⟩
    obtain ⟨node, hbuilds⟩ := hearlier j q other hj hother
    exact exists_hasNode hbuilds

theorem toTree_eq_ok_of_extends (hextends : r'.Extends r) {tree : PackageTree}
    (h : t.toTree r system stamp = .ok tree) : t.toTree r' system stamp = .ok tree := by
  obtain ⟨hstamp, hsystem, hsize, hnodes⟩ := toTree_eq_ok_iff.mp h
  refine toTree_eq_ok_iff.mpr ⟨hstamp, hsystem, hsize, fun i p sub hpackage => ?_⟩
  obtain ⟨node, hget, hnode⟩ := hnodes i p sub hpackage
  exact ⟨node, hget, hnode.builds.extend hextends, hnode.parent, hnode.subpackages⟩

/-- A tree that fails for anything but a tag that was not found fails for it with a greater registry
too. -/
theorem toTree_eq_error_of_extends (hextends : r'.Extends r) {error : BuildError}
    (h : t.toTree r system stamp = .error error) :
    t.toTree r' system stamp = .error error ∨
      ∃ i sub d tag, t.ComesTo r i sub ∧ sub.source.ComesTo r i d ∧ sub.source.LacksTag r d tag ∧
        error = .unknownEntityType tag d.context := by
  obtain ⟨i, sub, hcomes, hfails⟩ := toTree_eq_error_iff_comesTo.mp h
  obtain hsame | ⟨d, tag, hd, hlacks, herror⟩ := hfails.extend hextends
  · exact .inl (toTree_eq_error_iff_comesTo.mpr ⟨i, sub, hcomes.extend hextends, hsame⟩)
  · exact .inr ⟨i, sub, d, tag, hcomes, hd, hlacks, herror⟩

/-- To know more tags changes nothing for a tree that can do without them. What is built with a
registry is built to the same tree with every registry that extends it, and what fails, but for a
type that is not known, fails with the same error. A type that is not known is reported for the
definition at which building stops: either the definition has this tag and the registry does not
contain it, or there is a constructor for its tag that reports this error, and then every registry
that extends this one reports it too. A registry is extended by whatever is registered for tags that
it does not contain. -/
theorem toTree_of_extends (t : SourceTree) (system : SystemLink PackageTree) (stamp : Nat)
    (r : Registry) :
    (∀ r' : Registry, r'.Extends r →
      (∀ tree, t.toTree r system stamp = .ok tree → t.toTree r' system stamp = .ok tree) ∧
      (∀ error, (∀ tag context, error ≠ .unknownEntityType tag context) →
        t.toTree r system stamp = .error error → t.toTree r' system stamp = .error error) ∧
      ∀ tag context, t.toTree r system stamp = .error (.unknownEntityType tag context) →
        ∃ i sub d, t.ComesTo r i sub ∧ sub.source.ComesTo r i d ∧
          (sub.source.HasTag d tag ∧ r.contains tag = false ∧ d.context = context ∨
            (∃ own constructor, sub.source.HasTag d own ∧ r.constructor? own = some constructor ∧
              constructor d i = .error (.unknownEntityType tag context)) ∧
              t.toTree r' system stamp = .error (.unknownEntityType tag context))) ∧
    ∀ entries, (∀ e ∈ entries, r.contains e.1 = false) → (r.registerAll entries).Extends r := by
  refine ⟨fun r' hextends => ⟨?_, ?_, ?_⟩, fun entries hnew => Registry.extends_registerAll hnew⟩
  · intro tree htree
    exact toTree_eq_ok_of_extends hextends htree
  · intro error hother herror
    obtain hsame | ⟨_, _, d, tag, -, -, -, rfl⟩ := toTree_eq_error_of_extends hextends herror
    · exact hsame
    · exact absurd rfl (hother tag d.context)
  · intro tag context herror
    obtain ⟨i, sub, hcomes, hfails⟩ := toTree_eq_error_iff_comesTo.mp herror
    obtain ⟨e, -, hversion⟩ | ⟨d, hd, hyields⟩ := hfails.version_or_comesTo
    · exact nomatch hversion
    · refine ⟨i, sub, d, hcomes, hd, ?_⟩
      obtain hlookup | ⟨own, constructor, htag, hsome, hfailed⟩ := hyields.of_unknownEntityType rfl
      · exact .inl hlookup
      · have hyields' : sub.source.Yields r' i d (.error (.unknownEntityType tag context)) :=
          hfailed ▸ .constructed htag (hextends _ _ hsome)
        refine .inr ⟨⟨own, constructor, htag, hsome, hfailed⟩, ?_⟩
        exact toTree_eq_error_iff_comesTo.mpr
          ⟨i, sub, hcomes.extend hextends, (hd.extend hextends).fails hyields'⟩

/-- A package with a blueprint that has an older tag. -/
def legacyTree : SourceTree :=
  .node
    { directoryName := "dock"
      directory := none
      metadata := none
      versions := none
      definitions :=
        [⟨"crane.json", [("type", .string "legacy/Blueprint"), ("name", .string "Crane")]⟩] }
    []

/-- Without the older tag the package is not built, and the tag is the one that is missing. With it
the package is built, and the bundled package is what it was. -/
theorem toTree_of_extends_legacy :
    let more := Registry.simos.registerAll [("legacy/Blueprint", .blueprint)]
    more.Extends .simos ∧
      SystemPackage.source.toTree more .own SystemPackage.stamp = .ok SystemPackage.bundled ∧
      legacyTree.toTree .simos .absent 1 =
        .error (.unknownEntityType "legacy/Blueprint" "crane.json") ∧
      Registry.simos.contains "legacy/Blueprint" = false ∧
      (legacyTree.toTree more .absent 1).isOk = true := by
  intro more
  have hnew : ∀ e ∈ [("legacy/Blueprint", Constructor.blueprint)],
      Registry.simos.contains e.1 = false := by
    simp [Registry.contains, Registry.simos, Registry.register]
    decide
  obtain ⟨-, hregister⟩ := toTree_of_extends SystemPackage.source .own SystemPackage.stamp .simos
  have hextends : more.Extends .simos := hregister _ hnew
  have hbundled := ((toTree_of_extends SystemPackage.source .own SystemPackage.stamp .simos).1 more
    hextends).1 _ SystemPackage.built_eq
  have hfails : legacyTree.toTree .simos .absent 1 =
      .error (.unknownEntityType "legacy/Blueprint" "crane.json") := by
    rfl
  have hbuilt : (legacyTree.toTree more .absent 1).isOk = true := by decide +kernel
  refine ⟨hextends, hbundled, hfails, ?_, hbuilt⟩
  obtain ⟨i, sub, d, -, -, hlookup | ⟨-, hmore⟩⟩ :=
    ((toTree_of_extends legacyTree .absent 1 .simos).1 more hextends).2.2 _ _ hfails
  · exact hlookup.2.1
  · rw [hmore] at hbuilt
    exact nomatch hbuilt

end SourceTree

end BlueprintPackages
