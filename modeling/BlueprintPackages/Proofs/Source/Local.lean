import BlueprintPackages.Proofs.Fallible
import BlueprintPackages.Source.Build

/-!
# What a package comes to by itself

The rules by which a package is built from its own source and its own number, with nothing of the
packages around it. `Yields` says what one definition comes to: its type must be a text, an alias
in it must be one of the package's, the tag must be registered, and then the constructor decides.
`Fails` says with which error a package fails, its version before any definition and the first bad
definition before any later one, and `BuildsTo` which node it becomes. The function that runs obeys
exactly these rules (`toNode_eq_ok_iff`, `toNode_eq_error_iff`).
-/

namespace BlueprintPackages

namespace BuildError

theorem ofField_eq_ok_iff {α : Type} {x : Except FieldError α} {a : α} :
    ofField x = .ok a ↔ x = .ok a := by
  cases x with
  | error error => simp [ofField]
  | ok value => simp [ofField]

theorem ofField_eq_error_iff {α : Type} {x : Except FieldError α} {error : BuildError} :
    ofField x = .error error ↔ ∃ e, x = .error e ∧ error = .field e := by
  cases x with
  | error e => simp [ofField, eq_comm]
  | ok value => simp [ofField]

end BuildError

namespace PackageSource

/-! ## The rules -/

/-- The tag that the type of a definition stands for: the type itself if it uses no alias, and
else its one expansion through the aliases of the package. -/
inductive HasTag (s : PackageSource) (d : Definition) : String → Prop
  | plain {type : String} (htype : d.requiredText "type" = .ok type)
      (hsplit : Alias.split? type = none) : HasTag s d type
  | expanded {type aliasName rest address : String} (htype : d.requiredText "type" = .ok type)
      (hsplit : Alias.split? type = some (aliasName, rest))
      (halias : s.aliases.get? aliasName = some address) : HasTag s d (address ++ "/" ++ rest)

/-- What one definition of a package comes to, the package having the given number. -/
inductive Yields (s : PackageSource) (registry : Registry) (id : PackageId) (d : Definition) :
    Except BuildError Entity → Prop
  | badType {error : FieldError} (htype : d.requiredText "type" = .error error) :
      Yields s registry id d (.error (.field error))
  | unknownAlias {type aliasName rest : String} (htype : d.requiredText "type" = .ok type)
      (hsplit : Alias.split? type = some (aliasName, rest))
      (halias : s.aliases.get? aliasName = none) :
      Yields s registry id d (.error (.unresolvedAlias aliasName s.name))
  | unknownTag {tag : String} (htag : s.HasTag d tag) (hnone : registry.constructor? tag = none) :
      Yields s registry id d (.error (.unknownEntityType tag d.context))
  | constructed {tag : String} {constructor : Constructor} (htag : s.HasTag d tag)
      (hsome : registry.constructor? tag = some constructor) :
      Yields s registry id d (constructor d id)

/-- The error that a package fails with by itself. -/
inductive Fails (s : PackageSource) (registry : Registry) (id : PackageId) : BuildError → Prop
  | version {error : FieldError} (hversion : s.version = .error error) :
      Fails s registry id (.field error)
  | definition {version : Int} {before after : List Definition} {d : Definition}
      {error : BuildError} (hversion : s.version = .ok version)
      (hsplit : s.definitions = before ++ d :: after)
      (hbefore : ∀ b ∈ before, ∃ entity, s.Yields registry id b (.ok entity))
      (hd : s.Yields registry id d (.error error)) : Fails s registry id error

/-- The node that a package becomes, all but its place among the others. Every definition yields
an entity, and the entities are filed in order, each kind by itself. -/
structure BuildsTo (s : PackageSource) (registry : Registry) (id : PackageId)
    (node : PackageNode) : Prop where
  name : node.name = s.name
  directory : node.directory = s.directory
  version : s.version = .ok node.version
  aliases : node.aliases = s.aliases
  entities : ∃ entities,
    List.Forall₂ (fun d entity => s.Yields registry id d (.ok entity)) s.definitions entities ∧
    node.blueprints = .ofList (entities.filterMap Entity.blueprint?) ∧
    node.enumerations = .ofList (entities.filterMap Entity.enumeration?)

/-! ## The rules are what runs -/

variable {s : PackageSource} {registry : Registry} {id : PackageId} {d : Definition}

theorem tagOf_eq_ok_iff {tag : String} : s.tagOf d = .ok tag ↔ s.HasTag d tag := by
  constructor
  · intro h
    obtain ⟨type, htype, hexpand⟩ := Fallible.bind_eq_ok_iff.mp h
    rw [BuildError.ofField_eq_ok_iff] at htype
    cases hsplit : Alias.split? type with
    | none =>
        simp only [Alias.expand, hsplit, Option.getD_none, Except.ok.injEq] at hexpand
        exact hexpand ▸ .plain htype hsplit
    | some parts =>
        obtain ⟨aliasName, rest⟩ := parts
        cases halias : s.aliases.get? aliasName with
        | none => simp [Alias.expand, hsplit, halias] at hexpand
        | some address =>
            simp only [Alias.expand, hsplit, halias, Option.getD_some, Except.ok.injEq] at hexpand
            exact hexpand ▸ .expanded htype hsplit halias
  · rintro (⟨htype, hsplit⟩ | ⟨htype, hsplit, halias⟩)
    · simp [tagOf, htype, BuildError.ofField, Alias.expand, hsplit, bind, Except.bind]
    · simp [tagOf, htype, BuildError.ofField, Alias.expand, hsplit, halias, bind, Except.bind]

/-- Without a tag a definition yields the error that the search for the tag met. -/
theorem yields_of_tagOf_eq_error {error : BuildError} (h : s.tagOf d = .error error) :
    s.Yields registry id d (.error error) := by
  obtain htype | ⟨type, htype, hexpand⟩ := Fallible.bind_eq_error_iff.mp h
  · obtain ⟨fieldError, hfield, rfl⟩ := BuildError.ofField_eq_error_iff.mp htype
    exact .badType hfield
  · rw [BuildError.ofField_eq_ok_iff] at htype
    cases hsplit : Alias.split? type with
    | none => simp [Alias.expand, hsplit] at hexpand
    | some parts =>
        obtain ⟨aliasName, rest⟩ := parts
        cases halias : s.aliases.get? aliasName with
        | some address => simp [Alias.expand, hsplit, halias] at hexpand
        | none =>
            simp only [Alias.expand, hsplit, halias, Except.error.injEq] at hexpand
            exact hexpand ▸ .unknownAlias htype hsplit halias

/-- The function that builds an entity comes to what the rules say, and to nothing else. -/
theorem yields_iff {outcome : Except BuildError Entity} :
    s.Yields registry id d outcome ↔ s.entityOf registry id d = outcome := by
  constructor
  · intro h
    cases h with
    | badType htype => simp [entityOf, tagOf, htype, BuildError.ofField, bind, Except.bind]
    | unknownAlias htype hsplit halias =>
        simp [entityOf, tagOf, htype, BuildError.ofField, Alias.expand, hsplit, halias, bind,
          Except.bind]
    | unknownTag htag hnone =>
        simp [entityOf, tagOf_eq_ok_iff.mpr htag, Registry.construct, hnone, bind, Except.bind]
    | constructed htag hsome =>
        simp [entityOf, tagOf_eq_ok_iff.mpr htag, Registry.construct, hsome, bind, Except.bind]
  · rintro rfl
    cases htag : s.tagOf d with
    | error error =>
        rw [entityOf, htag]
        exact yields_of_tagOf_eq_error htag
    | ok tag =>
        have hrule : s.HasTag d tag := tagOf_eq_ok_iff.mp htag
        have hentity : s.entityOf registry id d = registry.construct tag d id := by
          rw [entityOf, htag]
          rfl
        rw [hentity, Registry.construct]
        split
        · next constructor hfound => exact .constructed hrule hfound
        · next hfound => exact .unknownTag hrule hfound

theorem entitiesOf_eq_mapM (definitions : List Definition) :
    s.entitiesOf registry id definitions = definitions.mapM (s.entityOf registry id) := by
  induction definitions with
  | nil => rfl
  | cons d rest ih => rw [entitiesOf, List.mapM_cons, ih]

/-- A package is built exactly to the node that the rules describe; its place is as given, and
no subpackage is filed yet. -/
theorem toNode_eq_ok_iff {parent : Option PackageId} {node : PackageNode} :
    s.toNode registry id parent = .ok node ↔
      s.BuildsTo registry id node ∧ node.parent = parent ∧ node.subpackages = .empty := by
  simp only [toNode, Fallible.bind_eq_ok_iff, BuildError.ofField_eq_ok_iff, entitiesOf_eq_mapM,
    Fallible.mapM_eq_ok_iff, ← yields_iff]
  constructor
  · rintro ⟨version, hversion, entities, hentities, hnode⟩
    obtain rfl := Except.ok.inj hnode
    exact ⟨⟨rfl, rfl, hversion, rfl, entities, hentities, rfl, rfl⟩, rfl, rfl⟩
  · rintro ⟨⟨hname, hdirectory, hversion, haliases, entities, hentities, hb, he⟩, hparent, hsub⟩
    refine ⟨node.version, hversion, entities, hentities, ?_⟩
    rw [← hname, ← hdirectory, ← haliases, ← hb, ← he, ← hparent, ← hsub]
    rfl

/-- A package fails exactly with the error that the rules name. -/
theorem toNode_eq_error_iff {parent : Option PackageId} {error : BuildError} :
    s.toNode registry id parent = .error error ↔ s.Fails registry id error := by
  simp only [toNode, Fallible.bind_eq_error_iff, BuildError.ofField_eq_error_iff,
    BuildError.ofField_eq_ok_iff, entitiesOf_eq_mapM, Fallible.mapM_eq_error_iff, ← yields_iff]
  constructor
  · rintro (⟨fieldError, hversion, rfl⟩ | ⟨version, hversion, hentities | ⟨_, _, hpure⟩⟩)
    · exact .version hversion
    · obtain ⟨before, d, after, hsplit, hbefore, hd⟩ := hentities
      exact .definition hversion hsplit hbefore hd
    · exact nomatch hpure
  · rintro (hversion | ⟨hversion, hsplit, hbefore, hd⟩)
    · exact .inl ⟨_, hversion, rfl⟩
    · exact .inr ⟨_, hversion, .inl ⟨_, _, _, hsplit, hbefore, hd⟩⟩

/-- A package builds to its node at whatever place the node is put. -/
theorem BuildsTo.placed {node : PackageNode} (h : s.BuildsTo registry id node)
    (parent : Option PackageId) (subpackages : OrderedMap PackageId) :
    s.BuildsTo registry id { node with parent, subpackages } :=
  ⟨h.name, h.directory, h.version, h.aliases, h.entities⟩

/-- No package both builds and fails. -/
theorem BuildsTo.not_fails {node : PackageNode} {error : BuildError}
    (h : s.BuildsTo registry id node) : ¬ s.Fails registry id error := by
  intro hfails
  have hok : s.toNode registry id none =
      .ok { node with parent := none, subpackages := .empty } :=
    toNode_eq_ok_iff.mpr ⟨h.placed none .empty, rfl, rfl⟩
  have herror : s.toNode registry id none = .error error := toNode_eq_error_iff.mpr hfails
  exact nomatch hok.symm.trans herror

end PackageSource

end BlueprintPackages
