import BlueprintPackages.Proofs.Address.OwnAliases
import BlueprintPackages.Proofs.Source.FirstFault
import BlueprintPackages.Proofs.Source.OwnFiles
import BlueprintPackages.Proofs.Tree.FilingOrder
import BlueprintPackages.Proofs.Tree.TypeTags

/-!
# A package has its own metadata

The metadata of a package is that of its own directory, and it is complete before any entity is
built: reading comes first, and what is built is built from a source that has been read. So it makes
no difference that most files stand before `package.json` in the order of names.

The table of aliases is filled from the dependencies in their order. Those that lack an alias or an
address, or whose alias is empty, declare nothing; of the others the last of each alias counts, and
the first tells its place (`PackageSource.get?_aliases_iff`, `PackageSource.keys_aliases`). This
table and the name of the package are what each definition is dispatched with, whether it is built
(`Package.OfOwnFiles`) or not, and no other package's: neither for types nor for addresses
(`Loader.metadata_is_complete_and_own`).
-/

namespace BlueprintPackages

/-! ## Dependencies -/

namespace Dependency

variable {r : Dependency} {aliasName address : String}

theorem binding?_eq_some_iff :
    r.binding? = some (aliasName, address) ↔
      aliasName ≠ "" ∧ r = ⟨some aliasName, some address⟩ := by
  unfold binding?
  constructor
  · intro h
    split at h
    · next own meaning hown hmeaning =>
      by_cases hempty : own = ""
      · rw [if_pos hempty] at h
        exact nomatch h
      · rw [if_neg hempty] at h
        cases h
        obtain ⟨own?, meaning?⟩ := r
        cases hown
        cases hmeaning
        exact ⟨hempty, rfl⟩
    · exact nomatch h
  · rintro ⟨hne, rfl⟩
    exact if_neg hne

/-- The alias that a dependency declares, if it has an address and an alias that is not empty. -/
def declared? (r : Dependency) : Option String :=
  if r.address.isSome ∧ r.aliasName ≠ some "" then r.aliasName else none

theorem map_fst_binding? (r : Dependency) : r.binding?.map Prod.fst = r.declared? := by
  unfold binding? declared?
  obtain ⟨own?, meaning?⟩ := r
  cases own? with
  | none => simp
  | some own =>
      cases meaning? with
      | none => simp
      | some meaning => by_cases hempty : own = "" <;> simp [hempty]

end Dependency

/-- The dependencies in the metadata of a package, none if there is no metadata. -/
def Metadata.recorded (metadata : Option Metadata) : List Dependency :=
  metadata.elim [] Metadata.dependencies

namespace PackageSource

variable {s : PackageSource} {registry : Registry} {id : PackageId} {aliasName address : String}

theorem aliases_eq (s : PackageSource) :
    s.aliases = .ofList ((Metadata.recorded s.metadata).filterMap Dependency.binding?) := by
  unfold aliases
  cases s.metadata with
  | none => rfl
  | some m => rfl

/-- Of the dependencies that give an address for an alias the last counts. -/
theorem get?_aliases_iff : s.aliases.get? aliasName = some address ↔
    aliasName ≠ "" ∧ ∃ before after, Metadata.recorded s.metadata =
      before ++ ⟨some aliasName, some address⟩ :: after ∧
        ∀ other, ⟨some aliasName, some other⟩ ∉ after := by
  rw [aliases_eq, OrderedMap.get?_ofList_filterMap_iff]
  simp only [ne_eq, Dependency.binding?_eq_some_iff]
  constructor
  · rintro ⟨before, _, after, hsplit, ⟨hne, rfl⟩, hlast⟩
    refine ⟨hne, before, after, hsplit, ?_⟩
    intro other hmem
    exact hlast _ hmem other ⟨hne, rfl⟩
  · rintro ⟨hne, before, after, hsplit, hlast⟩
    refine ⟨before, _, after, hsplit, ⟨hne, rfl⟩, ?_⟩
    rintro later hmem other ⟨-, rfl⟩
    exact hlast other hmem

/-- An alias stands where the first dependency that declares it stands. -/
theorem keys_aliases (s : PackageSource) :
    s.aliases.keys = ((Metadata.recorded s.metadata).filterMap Dependency.declared?).eraseDups := by
  rw [aliases_eq, OrderedMap.keys_ofList, List.map_filterMap]
  simp only [Dependency.map_fst_binding?]

/-- An alias without a meaning is one for which no dependency gives an address. -/
theorem not_mem_recorded_of_get?_aliases (hne : aliasName ≠ "")
    (h : s.aliases.get? aliasName = none) (address : String) :
    ⟨some aliasName, some address⟩ ∉ Metadata.recorded s.metadata := by
  intro hmem
  have hpair : (aliasName, address) ∈
      (Metadata.recorded s.metadata).filterMap Dependency.binding? :=
    List.mem_filterMap.mpr ⟨_, hmem, Dependency.binding?_eq_some_iff.mpr ⟨hne, rfl⟩⟩
  obtain ⟨meaning, hmeaning⟩ := OrderedMap.exists_get?_ofList_of_mem hpair
  rw [aliases_eq, hmeaning] at h
  exact nomatch h

end PackageSource

/-! ## Building -/

/-- A constructor of a standard registry that fails has found a bad field. -/
theorem Registry.Standard.exists_fieldError {r : Registry} (h : r.Standard) {tag : String}
    {constructor : Constructor} (hget : r.constructor? tag = some constructor) {d : Definition}
    {id : PackageId} {error : BuildError} (hfailed : constructor d id = .error error) :
    ∃ e, error = .field e := by
  rcases h tag constructor hget with rfl | rfl
  · unfold Constructor.blueprint at hfailed
    split at hfailed
    · exact nomatch hfailed
    · exact ⟨_, (Except.error.inj hfailed).symm⟩
  · unfold Constructor.enumeration at hfailed
    split at hfailed
    · exact nomatch hfailed
    · exact ⟨_, (Except.error.inj hfailed).symm⟩

/-- The node of a package without its place among the others. -/
def PackageNode.withoutPlace (node : PackageNode) : PackageNode :=
  { node with parent := none, subpackages := .empty }

namespace PackageSource

variable {s : PackageSource} {registry : Registry} {id : PackageId}

/-- The source of a package decides all of its node but the place. -/
theorem BuildsTo.withoutPlace_eq {node node' : PackageNode} (h : s.BuildsTo registry id node)
    (h' : s.BuildsTo registry id node') : node.withoutPlace = node'.withoutPlace := by
  have hbuilt : s.toNode registry id none = .ok node.withoutPlace :=
    toNode_eq_ok_iff.mpr ⟨h.placed none .empty, rfl, rfl⟩
  have hbuilt' : s.toNode registry id none = .ok node'.withoutPlace :=
    toNode_eq_ok_iff.mpr ⟨h'.placed none .empty, rfl, rfl⟩
  exact Except.ok.inj (hbuilt.symm.trans hbuilt')

/-- An alias is unresolved if a definition uses it and the package does not declare it; it is the
package itself that the error names. -/
theorem Fails.of_unresolvedAlias (hstandard : registry.Standard) {aliasName package : String}
    (h : s.Fails registry id (.unresolvedAlias aliasName package)) :
    package = s.name ∧ s.aliases.get? aliasName = none ∧ ∃ d ∈ s.definitions, ∃ type rest,
      d.content.lookup "type" = some (.string type) ∧ Address.UsesAlias type aliasName rest := by
  generalize herror : BuildError.unresolvedAlias aliasName package = error at h
  cases h with
  | version hversion => exact nomatch herror
  | @definition version before after d error hversion hsplit hbefore hd =>
      have hmem : d ∈ s.definitions := hsplit ▸ List.mem_append_right before List.mem_cons_self
      generalize houtcome : Except.error error = outcome at hd
      cases hd with
      | badType htype =>
          obtain rfl := Except.error.inj houtcome
          exact nomatch herror
      | @unknownAlias type aliasName rest htype hsplit halias =>
          obtain rfl := Except.error.inj houtcome
          obtain ⟨rfl, rfl⟩ := BuildError.unresolvedAlias.inj herror
          obtain ⟨hget, -⟩ := Definition.requiredText_eq_ok_iff.mp htype
          exact ⟨rfl, halias, d, hmem, type, rest, hget, Address.split?_eq_some_iff.mp hsplit⟩
      | unknownTag htag hnone =>
          obtain rfl := Except.error.inj houtcome
          exact nomatch herror
      | constructed htag hsome =>
          -- the error of a constructor is that of a field, and never names an alias
          obtain ⟨e, rfl⟩ := hstandard.exists_fieldError hsome houtcome.symm
          exact nomatch herror

end PackageSource

/-! ## Loaded packages -/

/-- A package that was built from what the files of the directory at a path spell, its name and its
table of aliases from the metadata, and each entity file by that table. -/
structure Package.OfOwnFiles (p : Package) (registry : Registry) (fs : FileSystem) (path : String)
    (entries : List (String × FileNode)) (s : PackageSource) : Prop where
  ofDirectory : s.OfDirectory fs path entries
  directory : p.directory? = some path
  builds : s.BuildsTo registry p.id.val p.node
  name : p.name = (s.metadata.bind Metadata.name).getD s.directoryName
  alias_iff : ∀ aliasName address, p.alias? aliasName = some address ↔
    aliasName ≠ "" ∧ ∃ before after, Metadata.recorded s.metadata =
      before ++ ⟨some aliasName, some address⟩ :: after ∧
        ∀ other, ⟨some aliasName, some other⟩ ∉ after
  order : p.node.aliases.keys =
    ((Metadata.recorded s.metadata).filterMap Dependency.declared?).eraseDups
  dispatched : ∀ file, fs.PackageFile path entries [file] .definition →
    ∃ text content type tag constructor entity, fs.Spells path entries file .definition text ∧
      Json.ofText text = .ok (.object content) ∧ p.Typed registry content constructor type tag ∧
        constructor ⟨Path.join path file, content⟩ p.id.val = .ok entity

/-- A package that is built from the source of a directory is built from the files there. -/
theorem PackageSource.BuildsTo.ofOwnFiles {s : PackageSource} {registry : Registry} {p : Package}
    {fs : FileSystem} {path : String} {entries : List (String × FileNode)}
    (h : s.BuildsTo registry p.id.val p.node) (hdirectory : s.OfDirectory fs path entries) :
    p.OfOwnFiles registry fs path entries s where
  ofDirectory := hdirectory
  directory := h.directory.trans hdirectory.directory
  builds := h
  name := h.name
  alias_iff := by
    intro aliasName address
    unfold Package.alias?
    rw [h.aliases]
    exact s.get?_aliases_iff
  order := by
    rw [h.aliases]
    exact s.keys_aliases
  dispatched := by
    intro file hfile
    obtain ⟨text, content, hspells, hcontent⟩ := hdirectory.complete file hfile
    have hd : ⟨Path.join path file, content⟩ ∈ s.definitions :=
      (hdirectory.definitions _).mpr ⟨file, text, content, hspells, hcontent, rfl⟩
    obtain ⟨entities, hall, -⟩ := h.entities
    obtain ⟨entity, hyields⟩ := Fallible.exists_forall₂_iff.mp ⟨entities, hall⟩ _ hd
    obtain ⟨type, tag, constructor, htyped, hbuilt⟩ := hyields.exists_constructor h.aliases
    exact ⟨text, content, type, tag, constructor, entity, hspells, hcontent, htyped, hbuilt⟩

namespace Loader

/-- A load that fails in building has read the sources. -/
theorem exists_read_of_build_error {l : Loader} {fs : FileSystem} {stamp : Nat} {path : String}
    {error : BuildError} (h : l.load fs stamp path = .error (.build error) ∨
      l.loadSystem fs stamp path = .error (.build error)) :
    ∃ system source, SourceTree.read fs path = .ok source ∧
      source.toTree l.registry system stamp = .error error := by
  have hwith : ∀ system, l.loadWith system fs stamp path = .error (.build error) →
      ∃ source, SourceTree.read fs path = .ok source ∧
        source.toTree l.registry system stamp = .error error := by
    intro system hfailed
    obtain ⟨e, -, he⟩ | ⟨source, e, hread, htree, he⟩ := loadWith_eq_error_iff.mp hfailed
    · exact nomatch he
    · exact ⟨source, hread, LoadError.build.inj he ▸ htree⟩
  rcases h with h | h
  · exact ⟨_, hwith _ h⟩
  · exact ⟨_, hwith _ h⟩

/-- Every package of a tree that was loaded is built from the files of its own directory, with the
name and the whole table of aliases that its metadata gives it. If a load fails for an alias, then
the package that the error names is one whose metadata, once read, declares no such alias. Nothing
of other packages is in what a package is built to; and of two packages that mean the same by every
alias, in trees that differ in the tables of aliases only, every address finds the same. -/
theorem metadata_is_complete_and_own {fs : FileSystem} (hfs : fs.WellNamed) (l : Loader)
    (stamp : Nat) (path : String) :
    (∀ t, l.load fs stamp path = .ok t ∨ l.loadSystem fs stamp path = .ok t →
      ∀ p : Package, p.tree = t → ∃ directory entries s,
        p.OfOwnFiles l.registry fs directory entries s) ∧
    (l.registry.Standard → ∀ aliasName package,
      (l.load fs stamp path = .error (.build (.unresolvedAlias aliasName package)) ∨
        l.loadSystem fs stamp path = .error (.build (.unresolvedAlias aliasName package))) →
      ∃ directory entries s, PackageSource.OfDirectory fs directory entries s ∧
        package = (s.metadata.bind Metadata.name).getD s.directoryName ∧
        (∀ address, ⟨some aliasName, some address⟩ ∉ Metadata.recorded s.metadata) ∧
        ∃ file text content type rest, fs.Spells directory entries file .definition text ∧
          Json.ofText text = .ok (.object content) ∧
          content.lookup "type" = some (.string type) ∧ Address.UsesAlias type aliasName rest) ∧
    (∀ (s : PackageSource) (registry : Registry) (p q : Package), p.id.val = q.id.val →
      s.BuildsTo registry p.id.val p.node → s.BuildsTo registry q.id.val q.node →
        p.node.withoutPlace = q.node.withoutPlace) ∧
    ∀ p q : Package, p.withoutAliases = q.withoutAliases →
      (∀ aliasName, p.alias? aliasName = q.alias? aliasName) → ∀ address,
        (p.blueprintAt address).map Resolved.withoutAliases =
            (q.blueprintAt address).map Resolved.withoutAliases ∧
          (p.enumerationAt address).map Resolved.withoutAliases =
            (q.enumerationAt address).map Resolved.withoutAliases := by
  refine ⟨?_, ?_, ?_, ?_⟩
  · intro t hload p hp
    obtain ⟨system, source, hread, htree⟩ := exists_read_of_load hload
    obtain ⟨place, sub, hplace, hnode⟩ :=
      SourceTree.exists_hasNode_of_node htree (p.nodes_getElem? hp)
    obtain ⟨directory, entries, hdirectory⟩ :=
      SourceTree.exists_ofDirectory_of_read hfs hread hplace.tree
    exact ⟨directory, entries, sub.source, hnode.builds.ofOwnFiles hdirectory⟩
  · intro hstandard aliasName package hfailed
    obtain ⟨system, source, hread, htree⟩ := exists_read_of_build_error hfailed
    obtain ⟨i, place, sub, hplace, hfails, -⟩ := SourceTree.toTree_eq_error_iff.mp htree
    obtain ⟨directory, entries, hdirectory⟩ :=
      SourceTree.exists_ofDirectory_of_read hfs hread hplace.tree
    obtain ⟨rfl, hnone, d, hd, type, rest, htype, huses⟩ := hfails.of_unresolvedAlias hstandard
    obtain ⟨file, text, content, hspells, hcontent, rfl⟩ := (hdirectory.definitions d).mp hd
    exact ⟨directory, entries, sub.source, hdirectory, rfl,
      PackageSource.not_mem_recorded_of_get?_aliases huses.ne hnone, file, text, content, type,
      rest, hspells, hcontent, htype, huses⟩
  · intro s registry p q hid hp hq
    exact (hid ▸ hp : s.BuildsTo registry q.id.val p.node).withoutPlace_eq hq
  · exact fun p q htree haliases => Package.lookups_ask_for_own_aliases htree haliases

/-- An entity file that stands before the metadata, and an alias that is declared twice. -/
def fairwayEntries : List (String × FileNode) :=
  [("Buoy.json", .file "\x7b\"name\": \"Buoy\", \"type\": \"s:Blueprint\"\x7d".toUTF8),
    ("package.json", .file ("\x7b\"name\": \"fairway\", \"_meta_\": \x7b\"dependencies\": [" ++
      "\x7b\"alias\": \"s\", \"address\": \"elsewhere\"\x7d, " ++
      "\x7b\"alias\": \"s\", \"address\": \"system/SIMOS\"\x7d]\x7d\x7d").toUTF8)]

def fairwayFiles : FileSystem where
  root := .directory [("marine", .directory fairwayEntries)]
  workingDirectory := []

/-- The entity is dispatched by the meaning that the alias has in the end. -/
theorem metadata_is_complete_and_own_fairway :
    fairwayFiles.WellNamed ∧ ∃ t, standard.load fairwayFiles 1 "marine" = .ok t ∧
      t.root.name = "fairway" ∧ t.root.alias? "s" = some "system/SIMOS" ∧
      ∃ directory entries s, t.root.OfOwnFiles .simos fairwayFiles directory entries s := by
  have hfs : fairwayFiles.WellNamed := by decide +kernel
  have hname : fairwayFiles.nameOf "marine" = .ok "marine" := by rfl
  have hentries : fairwayFiles.entries "marine" = .ok fairwayEntries := by rfl
  have hload : (standard.load fairwayFiles 1 "marine").map
      (fun t => (t.root.name, t.root.alias? "s")) = .ok ("fairway", some "system/SIMOS") := by
    rw [load, loadWith, SourceTree.read_of_sorted hname hentries (by decide)]
    decide +kernel
  obtain ⟨t, hload, hfacts⟩ := Fallible.map_eq_ok_iff.mp hload
  obtain ⟨htname, halias⟩ := Prod.mk.inj hfacts
  have hown := (metadata_is_complete_and_own hfs standard 1 "marine").1 t (.inl hload) t.root rfl
  exact ⟨hfs, t, hload, htname, halias, hown⟩

end Loader

end BlueprintPackages
