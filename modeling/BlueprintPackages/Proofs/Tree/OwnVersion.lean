import BlueprintPackages.Proofs.Json.Values
import BlueprintPackages.Proofs.Source.Growing

/-!
# The version of a package is its own

The version of a package comes from three places, the first of which that says something counts:
the entry under the package's name in its version table, its metadata, and zero. An entry that says
something and is no version makes the package fail before its definitions are looked at
(`PackageSource.OwnVersion`). The name is the one that the package has in the end, so the metadata
decide which entry is its own.

Nothing else in a version table is looked at. So where the tables of any packages of a tree are
replaced by others that have the same entry under the name of their package, the whole tree is built
as before (`SourceTree.toTree_eq_of_alike`).
-/

namespace BlueprintPackages

namespace PackageSource

variable {s s' : PackageSource} {registry : Registry} {id : PackageId} {parent : Option PackageId}

/-! ## Where a version comes from -/

/-- The version that the metadata of a package give, and zero if they give none. -/
def declaredVersion (s : PackageSource) : Int := (s.metadata.bind Metadata.version?).getD 0

/-- What the package's own entry in its version table says. -/
def recordedVersion? (s : PackageSource) : Option Json :=
  s.versions.bind fun table => table.entries.lookup s.name

/-- What the version of a package comes to. -/
inductive OwnVersion (s : PackageSource) : Except FieldError Int → Prop
  | entry {value : Int} (hentry : s.recordedVersion? = some (.number (.integer value)))
      (hvalue : IsVersion value) : OwnVersion s (.ok value)
  | bad {table : VersionTable} {entry : Json} (htable : s.versions = some table)
      (hentry : table.entries.lookup s.name = some entry) (hnull : entry ≠ .null)
      (hother : ∀ value, IsVersion value → entry ≠ .number (.integer value)) :
      OwnVersion s (.error (.wrongShape s.name table.context .integer))
  | declared (hentry : s.recordedVersion? = none ∨ s.recordedVersion? = some .null) :
      OwnVersion s (.ok s.declaredVersion)

theorem version_of_no_table (h : s.versions = none) : s.version = .ok s.declaredVersion := by
  unfold version
  rw [h]
  rfl

theorem version_of_table {table : VersionTable} (h : s.versions = some table) :
    s.version = (table.version? s.name).map fun found => found.getD s.declaredVersion := by
  unfold version
  rw [h]
  show (table.version? s.name >>= fun found => pure (found.getD s.declaredVersion)) = _
  cases table.version? s.name <;> rfl

theorem recordedVersion?_of_table {table : VersionTable} (h : s.versions = some table) :
    s.recordedVersion? = table.entries.lookup s.name := by
  rw [recordedVersion?, h, Option.bind_some]

/-- The version is what the rules say, as long as the table has only numbers that a text spells. -/
theorem ownVersion_version (hspellable : ∀ table, s.versions = some table → table.Spellable) :
    s.OwnVersion s.version := by
  cases htable : s.versions with
  | none =>
      rw [version_of_no_table htable]
      refine .declared (.inl ?_)
      rw [recordedVersion?, htable, Option.bind_none]
  | some table =>
      have hown := recordedVersion?_of_table htable
      rw [version_of_table htable]
      unfold VersionTable.version?
      split
      · next hentry => exact .declared (.inl (hown.trans hentry))
      · next hentry => exact .declared (.inr (hown.trans hentry))
      · next value hentry =>
        -- no text spells an integer below the least version, so only the upper bound is asked for
        have hmin : Int64.minValue.toInt ≤ value := (hspellable table htable _ _ hentry).1
        by_cases hmax : value ≤ Int64.maxValue.toInt
        · rw [if_pos hmax]
          exact .entry (hown.trans hentry) ⟨hmin, hmax⟩
        · rw [if_neg hmax]
          refine .bad htable hentry nofun ?_
          rintro other hother heq
          cases heq
          exact hmax hother.2
      · next entry hnull hinteger hentry =>
        exact .bad htable hentry hnull fun value _ => hinteger value

/-- The rules leave no choice. -/
theorem OwnVersion.unique {outcome outcome' : Except FieldError Int} (h : s.OwnVersion outcome)
    (h' : s.OwnVersion outcome') : outcome = outcome' := by
  cases h with
  | entry hentry hvalue =>
      cases h' with
      | entry hentry' hvalue' =>
          cases hentry.symm.trans hentry'
          rfl
      | bad htable hlookup hnull hother =>
          rw [recordedVersion?_of_table htable, hlookup] at hentry
          exact absurd (Option.some.inj hentry) (hother _ hvalue)
      | declared hentry' => simp [hentry] at hentry'
  | bad htable hlookup hnull hother =>
      cases h' with
      | entry hentry' hvalue' =>
          rw [recordedVersion?_of_table htable, hlookup] at hentry'
          exact absurd (Option.some.inj hentry') (hother _ hvalue')
      | bad htable' hlookup' hnull' hother' =>
          cases htable.symm.trans htable'
          rfl
      | declared hentry' =>
          rw [recordedVersion?_of_table htable, hlookup] at hentry'
          simp [hnull] at hentry'
  | declared hentry =>
      cases h' with
      | entry hentry' hvalue' => simp [hentry'] at hentry
      | bad htable hlookup hnull hother =>
          rw [recordedVersion?_of_table htable, hlookup] at hentry
          simp [hnull] at hentry
      | declared hentry' => rfl

theorem ownVersion_iff (hspellable : ∀ table, s.versions = some table → table.Spellable)
    {outcome : Except FieldError Int} : s.OwnVersion outcome ↔ s.version = outcome := by
  constructor
  · exact fun h => (ownVersion_version hspellable).unique h
  · rintro rfl
    exact ownVersion_version hspellable

/-- Without a version no definition matters. -/
theorem toNode_of_version_eq_error {error : FieldError} (h : s.version = .error error)
    (definitions : List Definition) :
    { s with definitions }.toNode registry id parent = .error (.field error) := by
  have hversion : { s with definitions }.version = .error error := h
  rw [toNode, hversion]
  rfl

/-! ## Other tables with the same entry -/

/-- Packages that differ in nothing but what their version tables hold under other names. -/
structure SameOwnEntry (s s' : PackageSource) : Prop where
  others : { s with versions := none } = { s' with versions := none }
  entry : s.recordedVersion? = s'.recordedVersion?
  context : ∀ table table', s.versions = some table → s'.versions = some table' →
    table.context = table'.context

namespace SameOwnEntry

variable (h : s.SameOwnEntry s')

include h

theorem metadata_eq : s.metadata = s'.metadata := (PackageSource.mk.inj h.others).2.2.1

theorem name_eq : s.name = s'.name := by
  rw [name, name, h.metadata_eq, (PackageSource.mk.inj h.others).1]

theorem declaredVersion_eq : s.declaredVersion = s'.declaredVersion := by
  rw [declaredVersion, declaredVersion, h.metadata_eq]

/-- A table that is not there has no own entry either. -/
theorem version_eq_of_no_table (hnone : s.versions = none) : s'.version = s.version := by
  rw [version_of_no_table hnone, h.declaredVersion_eq]
  cases htable' : s'.versions with
  | none => exact version_of_no_table htable'
  | some table' =>
      have hentry : table'.entries.lookup s'.name = none := by
        rw [← recordedVersion?_of_table htable', ← h.entry, recordedVersion?, hnone,
          Option.bind_none]
      rw [version_of_table htable', VersionTable.version?, hentry]
      rfl

theorem symm : s'.SameOwnEntry s where
  others := h.others.symm
  entry := h.entry.symm
  context table' table htable' htable := (h.context table table' htable htable').symm

theorem version_eq : s.version = s'.version := by
  cases htable : s.versions with
  | none => exact (h.version_eq_of_no_table htable).symm
  | some table =>
      cases htable' : s'.versions with
      | none => exact h.symm.version_eq_of_no_table htable'
      | some table' =>
          have hentry : table.entries.lookup s.name = table'.entries.lookup s'.name := by
            rw [← recordedVersion?_of_table htable, ← recordedVersion?_of_table htable', h.entry]
          have hfound : table.version? s.name = table'.version? s'.name := by
            rw [VersionTable.version?, VersionTable.version?, hentry,
              h.context table table' htable htable', h.name_eq]
          rw [version_of_table htable, version_of_table htable', hfound, h.declaredVersion_eq]

theorem toNode_eq : s.toNode registry id parent = s'.toNode registry id parent := by
  obtain ⟨hname, hdirectory, hmetadata, -, hdefinitions⟩ := PackageSource.mk.inj h.others
  obtain ⟨directoryName, directory, metadata, versions, definitions⟩ := s
  obtain ⟨directoryName', directory', metadata', versions', definitions'⟩ := s'
  dsimp only at hname hdirectory hmetadata hdefinitions
  subst hname hdirectory hmetadata hdefinitions
  have hentities :
      entitiesOf ⟨directoryName, directory, metadata, versions, definitions⟩ registry id
          definitions =
        entitiesOf ⟨directoryName, directory, metadata, versions', definitions⟩ registry id
          definitions := by
    rw [entitiesOf_eq_mapM, entitiesOf_eq_mapM]
    rfl
  rw [toNode, toNode, h.version_eq, hentities]
  rfl

end SameOwnEntry

end PackageSource

/-! ## Whole trees -/

namespace SourceTree

variable {t t' : SourceTree} {registry : Registry}

/-- Trees of one shape with packages that are related place by place. -/
structure Alike (R : PackageSource → PackageSource → Prop) (t t' : SourceTree) : Prop where
  places : t.places = t'.places
  related : ∀ p sub sub', t.at? p = some sub → t'.at? p = some sub' → R sub.source sub'.source

namespace Alike

variable {R : PackageSource → PackageSource → Prop} (h : t.Alike R t')

include h

theorem exists_at? {p : Place} {sub : SourceTree} (hp : t.at? p = some sub) :
    ∃ sub', t'.at? p = some sub' :=
  mem_places_iff.mp (h.places ▸ mem_places_iff.mpr ⟨sub, hp⟩)

theorem symm : t'.Alike (fun s s' => R s' s) t where
  places := h.places.symm
  related p sub' sub hp' hp := h.related p sub sub' hp hp'

theorem number_eq (p : Place) : t.number p = t'.number p := by
  rw [number, number, h.places]

theorem hasPackage {i : Nat} {p : Place} {sub : SourceTree} (hpackage : t.HasPackage i p sub) :
    ∃ sub', t'.HasPackage i p sub' ∧ R sub.source sub'.source := by
  obtain ⟨sub', hp'⟩ := h.exists_at? hpackage.tree
  exact ⟨sub', ⟨h.places ▸ hpackage.place, hp'⟩, h.related p sub sub' hpackage.tree hp'⟩

theorem parentNumber_eq (p : Place) : t.parentNumber p = t'.parentNumber p := by
  rw [parentNumber, parentNumber, h.number_eq]

/-- The subpackages are the same if related packages have the same name. -/
theorem subpackageNumbers_eq (hname : ∀ s s', R s s' → s.name = s'.name) {p : Place}
    {sub sub' : SourceTree} (hp : t.at? p = some sub) (hp' : t'.at? p = some sub') :
    t.subpackageNumbers p sub = t'.subpackageNumbers p sub' := by
  refine List.ext_getElem? fun k => ?_
  rw [subpackageNumbers_getElem?, subpackageNumbers_getElem?, ← at?_concat hp, ← at?_concat hp',
    h.number_eq]
  cases hc : t.at? (p ++ [k]) with
  | none =>
      cases hc' : t'.at? (p ++ [k]) with
      | none => rfl
      | some c' =>
          obtain ⟨c, hsome⟩ := h.symm.exists_at? hc'
          exact nomatch hc.symm.trans hsome
  | some c =>
      obtain ⟨c', hc'⟩ := h.exists_at? hc
      rw [hc', Option.map_some, Option.map_some, hname _ _ (h.related _ c c' hc hc')]

/-- The tables of rows are related row by row, and the rows differ in their sources only. -/
theorem rows_getElem? (hname : ∀ s s', R s s' → s.name = s'.name) {i : Nat} {row : Row}
    (hrow : (rows rootId none t)[i]? = some row) :
    ∃ source', R row.source source' ∧
      (rows rootId none t')[i]? = some { row with source := source' } := by
  obtain ⟨p, sub, hpackage⟩ := exists_hasPackage_of_row hrow
  obtain ⟨sub', hpackage', hrelated⟩ := h.hasPackage hpackage
  obtain rfl := Option.some.inj (hpackage.row.symm.trans hrow)
  refine ⟨sub'.source, hrelated, ?_⟩
  rw [hpackage'.row, ← h.parentNumber_eq,
    ← h.subpackageNumbers_eq hname hpackage.tree hpackage'.tree]

end Alike

/-- A tree is built as its rows are. -/
theorem toTree_congr {system : SystemLink PackageTree} {stamp : Nat}
    (h : (rows rootId none t).map (Row.build registry) =
      (rows rootId none t').map (Row.build registry)) :
    t.toTree registry system stamp = t'.toTree registry system stamp := by
  have hrows := Fallible.mapM_eq_of_map_eq h
  cases htree : t'.toTree registry system stamp with
  | ok tree => rw [toTree_eq_ok_iff_mapM_rows, hrows, ← toTree_eq_ok_iff_mapM_rows, htree]
  | error error =>
      rw [toTree_eq_error_iff_mapM_rows, hrows, ← toTree_eq_error_iff_mapM_rows, htree]

/-- Trees with the same own entries in all version tables are built to the same. -/
theorem toTree_eq_of_alike (h : t.Alike PackageSource.SameOwnEntry t')
    (system : SystemLink PackageTree) (stamp : Nat) :
    t.toTree registry system stamp = t'.toTree registry system stamp := by
  have hname : ∀ s s' : PackageSource, s.SameOwnEntry s' → s.name = s'.name :=
    fun _ _ hsame => hsame.name_eq
  refine toTree_congr (List.ext_getElem (by simp [length_rows, size, h.places]) ?_)
  intro i hi _
  rw [List.length_map] at hi
  obtain ⟨source', hsame, hrow'⟩ := h.rows_getElem? hname (List.getElem?_eq_getElem hi)
  obtain ⟨hi', hget⟩ := List.getElem?_eq_some_iff.mp hrow'
  rw [List.getElem_map, List.getElem_map, hget, Row.build, Row.build, hsame.toNode_eq]

/-- A package's version is told by its own entries alone. If its version table has an entry under
the name of the package that is not null, then this is the version, if it is an integer that fits;
if not, the package fails, whatever its definitions are. Otherwise the version is that of the
metadata, or zero. All numbers that are read from a version file are such as a text spells. Version
tables that have the same entry under the name of their package make no difference to the tree or
the error that all is built to, whatever they hold under other names, in however many packages. -/
theorem version_is_own (registry : Registry) :
    (∀ s : PackageSource, (∀ table, s.versions = some table → table.Spellable) →
      (∀ outcome, s.OwnVersion outcome ↔ s.version = outcome) ∧
      (∀ value, s.OwnVersion (.ok value) →
        ∀ id node, s.BuildsTo registry id node → node.version = value) ∧
      ∀ error, s.OwnVersion (.error error) → ∀ definitions id parent,
        { s with definitions }.toNode registry id parent = .error (.field error)) ∧
    (∀ context text table, VersionTable.ofText context text = .ok table → table.Spellable) ∧
    ∀ t t' : SourceTree, t.Alike PackageSource.SameOwnEntry t' → ∀ system stamp,
      t.toTree registry system stamp = t'.toTree registry system stamp := by
  refine ⟨fun s hspellable => ⟨fun outcome => ?_, ?_, ?_⟩, ?_, ?_⟩
  · exact PackageSource.ownVersion_iff hspellable
  · intro value hown id node hnode
    have hversion := (PackageSource.ownVersion_iff hspellable).mp hown
    exact Except.ok.inj (hnode.version.symm.trans hversion)
  · intro error hown definitions id parent
    have hversion := (PackageSource.ownVersion_iff hspellable).mp hown
    exact PackageSource.toNode_of_version_eq_error hversion definitions
  · intro context text table htable
    exact VersionTable.spellable_of_ofText htable
  · intro t t' halike system stamp
    exact toTree_eq_of_alike halike system stamp

/-- A package in the directory `ferry` that calls itself `vessel`, with a version table. -/
def vesselSource (entries : Members) : PackageSource where
  directoryName := "ferry"
  directory := none
  metadata := some
    { name := some "vessel", details := some { version := some 1, dependencies := [] } }
  versions := some ⟨"versions", entries⟩
  definitions := []

/-- The entry under the new name counts and that under the directory's name does not, be it a
version or not. -/
theorem version_is_own_vessel :
    let s := vesselSource [("ferry", .number (.integer 7)), ("vessel", .number (.integer 3))]
    let s' := vesselSource [("vessel", .number (.integer 3)), ("ferry", .string "seven")]
    s.OwnVersion (.ok 3) ∧ s.version = .ok 3 ∧
      (SourceTree.node s []).toTree .simos .absent 1 =
        (SourceTree.node s' []).toTree .simos .absent 1 := by
  intro s s'
  have hspellable : ∀ table, s.versions = some table → table.Spellable := by
    rintro _ ⟨⟩ key x hlookup
    have hmem := OrderedMap.mem_of_lookup hlookup
    simp only [List.mem_cons, List.not_mem_nil, Prod.mk.injEq, Json.number.injEq, or_false] at hmem
    rcases hmem with ⟨-, rfl⟩ | ⟨-, rfl⟩
    · exact ⟨by decide, by decide⟩
    · exact ⟨by decide, by decide⟩
  have hown : s.OwnVersion (.ok 3) := .entry (by rfl) ⟨by decide, by decide⟩
  have halike : (SourceTree.node s []).Alike PackageSource.SameOwnEntry (.node s' []) := by
    refine ⟨rfl, ?_⟩
    intro p sub sub' hp hp'
    cases p with
    | nil =>
        obtain rfl := Option.some.inj hp
        obtain rfl := Option.some.inj hp'
        exact ⟨rfl, by rfl, by rintro _ _ ⟨⟩ ⟨⟩; rfl⟩
    | cons k rest => exact nomatch hp
  obtain ⟨hversion, -, halikes⟩ := version_is_own .simos
  exact ⟨hown, ((hversion s hspellable).1 _).mp hown, halikes _ _ halike .absent 1⟩

end SourceTree

end BlueprintPackages
