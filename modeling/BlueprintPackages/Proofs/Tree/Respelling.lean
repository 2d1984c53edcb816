import BlueprintPackages.Proofs.Source.FirstFault
import BlueprintPackages.Proofs.Source.Rereading
import BlueprintPackages.Proofs.Tree.TypeTags

/-!
# Types spelled with an alias and without

A type `a:r` and the type `A/r` are one and the same to a package that has `A` for the alias `a`, as
long as the alias has no colon itself and neither has `A/r` (`PackageSource.tagOf_eq_of_respells`).
So it makes no difference which of the two stands in a file, as long as all packages that read a
definition from the file have `A` for `a`: loading fails as before, or gives the tree that it gave,
but for the type of what is from the file (`Loader.loadWith_replaceFile`).

Both conditions are needed. An alias may be declared with a colon in it, but then it is never found;
and a link may have a file read in a package that does not know the alias
(`Loader.spelling_decides_load`).
-/

namespace BlueprintPackages

/-! ## Two spellings of one tag -/

/-- One text uses the alias, and the other has the address that it stands for in its place. -/
inductive Alias.Respells (aliasName address : String) : String → String → Prop
  | expand {rest : String} (hcolon : ':' ∉ (address ++ "/" ++ rest).toList) :
      Respells aliasName address (aliasName ++ ":" ++ rest) (address ++ "/" ++ rest)
  | contract {rest : String} (hcolon : ':' ∉ (address ++ "/" ++ rest).toList) :
      Respells aliasName address (address ++ "/" ++ rest) (aliasName ++ ":" ++ rest)

namespace PackageSource

variable {s : PackageSource} {d d' : Definition} {aliasName address rest type type' : String}

/-- No package has an alias without a name. -/
theorem ne_empty_of_alias (h : s.aliases.get? aliasName = some address) : aliasName ≠ "" := by
  rw [aliases] at h
  split at h
  · exact nomatch h
  · obtain ⟨dependency, -, hbinding⟩ := List.mem_filterMap.mp (OrderedMap.mem_of_get?_ofList h)
    rw [Dependency.binding?] at hbinding
    split at hbinding
    · split at hbinding
      · exact nomatch hbinding
      · next hne =>
        obtain ⟨rfl, -⟩ := Prod.mk.inj (Option.some.inj hbinding)
        exact hne
    · exact nomatch hbinding

theorem HasTag.of_alias (h : s.aliases.get? aliasName = some address)
    (hcolon : ':' ∉ aliasName.toList)
    (htype : d.requiredText "type" = .ok (aliasName ++ ":" ++ rest)) :
    s.HasTag d (address ++ "/" ++ rest) :=
  .expanded htype (Address.split?_eq_some_iff.mpr ⟨rfl, hcolon, ne_empty_of_alias h⟩) h

theorem HasTag.of_colon_free (hcolon : ':' ∉ (address ++ "/" ++ rest).toList)
    (htype : d.requiredText "type" = .ok (address ++ "/" ++ rest)) :
    s.HasTag d (address ++ "/" ++ rest) :=
  .plain htype (Address.split?_eq_none_iff.mpr (.inl hcolon))

/-- Either spelling of a type gives the same tag. -/
theorem tagOf_eq_of_respells (h : s.aliases.get? aliasName = some address)
    (hcolon : ':' ∉ aliasName.toList) (hrespells : Alias.Respells aliasName address type type')
    (htype : d.requiredText "type" = .ok type) (htype' : d'.requiredText "type" = .ok type') :
    s.tagOf d' = s.tagOf d := by
  -- the one with the alias is expanded once, and the other has no colon and is its own tag
  cases hrespells with
  | expand hfree =>
      rw [tagOf_eq_ok_iff.mpr (.of_alias h hcolon htype), tagOf_eq_ok_iff]
      exact .of_colon_free hfree htype'
  | contract hfree =>
      rw [tagOf_eq_ok_iff.mpr (.of_colon_free hfree htype), tagOf_eq_ok_iff]
      exact .of_alias h hcolon htype'

/-- One of the definitions of a package is from the file at a location. -/
def ReadsFrom (s : PackageSource) (fs : FileSystem) (file : Location) : Prop :=
  ∃ d ∈ s.definitions, fs.locate d.context = .ok file

end PackageSource

theorem Alias.Respells.ne_empty {aliasName address type type' : String}
    (h : Respells aliasName address type type') : type ≠ "" ∧ type' ≠ "" := by
  cases h <;> simp

/-- Only one of the spellings has a colon. -/
theorem Alias.Respells.ne {aliasName address type type' : String}
    (h : Respells aliasName address type type') : type ≠ type' := by
  have hcolon : ∀ rest, ':' ∈ (aliasName ++ ":" ++ rest).toList := fun rest => by simp
  cases h with
  | @expand rest hfree => exact fun hsame => hfree (hsame ▸ hcolon rest)
  | @contract rest hfree => exact fun hsame => hfree (hsame ▸ hcolon rest)

/-! ## Loading with either spelling -/

namespace SourceTree

variable {fs : FileSystem} {file : Location} {bytes : ByteArray}
  {path old type type' aliasName address : String} {t : SourceTree}

/-- If all packages that read from a file know the alias, what is read from it can be retyped. -/
theorem retypable_of_read (hfs : fs.WellNamed) (h : fs.RetypesFile file bytes old type type')
    (hrespells : Alias.Respells aliasName address type type') (hcolon : ':' ∉ aliasName.toList)
    (hread : read fs path = .ok t)
    (halias : ∀ p sub, t.at? p = some sub → sub.source.ReadsFrom fs file →
      sub.source.aliases.get? aliasName = some address) :
    t.Retypable (fs.leadsTo file) old type' := by
  intro p sub hsub
  have hfiles := fromFiles_of_read hfs hread hsub
  obtain ⟨_, hat, hold⟩ := h.exists_bytes
  obtain ⟨new, -, hretyped⟩ := h.exists_text
  -- all paths to the file read one text, whatever links they take
  have htext : ∀ path text, fs.leadsTo file path = true → fs.readText path = .ok text →
      text = old := by
    intro path text hleads htext
    rw [FileSystem.readText_of_locate hat (of_decide_eq_true hleads), hold] at htext
    exact (Except.ok.inj htext).symm
  have hcontent : ∀ d ∈ sub.source.definitions, fs.leadsTo file d.context →
      Json.ofText old = .ok (.object d.content) := by
    intro d hd hleads
    obtain ⟨text, hreads, hcontent⟩ := hfiles.definitions d hd
    obtain rfl := htext _ _ hleads hreads
    exact hcontent
  refine ⟨hcontent, ?_, ?_⟩
  · intro d hd hleads
    have htype : d.get? "type" = some (.string type) :=
      hretyped.lookup_of_ofText (hcontent d hd hleads)
    refine PackageSource.tagOf_eq_of_respells ?_ hcolon hrespells ?_ ?_
    · exact halias p sub hsub ⟨d, hd, of_decide_eq_true hleads⟩
    · exact Definition.requiredText_eq_ok_iff.mpr ⟨htype, hrespells.ne_empty.1⟩
    · exact Definition.requiredText_type_retype type' d hrespells.ne_empty.2
  -- by a link the file may be read as a version table too, which then has a `type` to replace
  · intro table htable hleads
    obtain ⟨text, hreads, hentries⟩ := hfiles.versions table htable
    obtain rfl := htext _ _ hleads hreads
    exact ⟨type, hretyped.lookup_of_membersOfText hentries⟩

/-- Where only definitions from the file have the content of the file, nothing in the tree that is
retyped has it. -/
theorem content_ne_of_retype {registry : Registry} (hstandard : registry.Standard)
    (h : fs.RetypesFile file bytes old type type')
    (hrespells : Alias.Respells aliasName address type type') {system : SystemLink PackageTree}
    {stamp : Nat} {t' : PackageTree}
    (hbuild' : (t.retype (fs.leadsTo file) type').toTree registry system stamp = .ok t') {i : Nat}
    {p : Place} {sub : SourceTree} (hpackage : t.HasPackage i p sub)
    (hsole : ∀ d ∈ sub.source.definitions, Json.ofText old = .ok (.object d.content) →
      fs.locate d.context = .ok file) {node' : PackageNode} (hnode' : t'.nodes[i]? = some node')
    {content : Members} (hcontent : content ∈ node'.contents) :
    Json.ofText old ≠ .ok (.object content) := by
  intro hold
  obtain ⟨d, hd, rfl⟩ :=
    exists_definition_of_retype hstandard hbuild' hpackage hnode' hcontent
  rw [Definition.retypeIf] at hold
  split at hold
  · -- the content has the new type, and that of the file has the old one
    obtain ⟨new, -, hretyped⟩ := h.exists_text
    have htype := hretyped.lookup_of_ofText hold
    have htype' : (Json.retypeMembers type' d.content).lookup "type" = some (.string type') :=
      Json.lookup_retypeMembers_type d.content
    exact hrespells.ne (Json.string.inj (Option.some.inj (htype.symm.trans htype')))
  · next hunchanged => exact hunchanged (decide_eq_true (hsole d hd hold))

end SourceTree

namespace Loader

variable {l : Loader} {fs : FileSystem} {file : Location} {bytes : ByteArray}
  {path old type type' aliasName address : String}

/-- The tree that is loaded with the other text in the file, compared with the tree that is loaded
with the old one: the same, but that entities with the content of the file may have the new type.
What reads nothing from the file is exactly the same, and where nothing else has the content of the
file, nothing has this content any more. -/
structure Respelled (fs : FileSystem) (path : String) (file : Location) (old type' : String)
    (t t' : PackageTree) : Prop where
  retyped : t.Retyped old type' t'
  unchanged : ∀ {source i p sub}, SourceTree.read fs path = .ok source →
    source.HasPackage i p sub → ¬ sub.source.ReadsFrom fs file → t'.nodes[i]? = t.nodes[i]?
  replaced : ∀ {source i p sub node'}, SourceTree.read fs path = .ok source →
    source.HasPackage i p sub → (∀ d ∈ sub.source.definitions,
      Json.ofText old = .ok (.object d.content) → fs.locate d.context = .ok file) →
    t'.nodes[i]? = some node' →
    ∀ content ∈ node'.contents, Json.ofText old ≠ .ok (.object content)

/-- If every package that reads a definition from a file has the address for the alias, then it
makes no difference to a load which spelling of a type stands there. -/
theorem loadWith_replaceFile (hstandard : l.registry.Standard) (hfs : fs.WellNamed)
    (h : fs.RetypesFile file bytes old type type')
    (hrespells : Alias.Respells aliasName address type type') (hcolon : ':' ∉ aliasName.toList)
    (halias : ∀ source p sub, SourceTree.read fs path = .ok source → source.at? p = some sub →
      sub.source.ReadsFrom fs file → sub.source.aliases.get? aliasName = some address)
    (system : SystemLink PackageTree) (stamp : Nat) :
    Fallible.Agree (Respelled fs path file old type') (l.loadWith system fs stamp path)
      (l.loadWith system (fs.replaceFile file bytes) stamp path) := by
  rw [loadWith, loadWith, SourceTree.read_replaceFile hfs h]
  -- reading gives the old sources, retyped, so the two loads are two builds or fail alike
  cases hread : SourceTree.read fs path with
  | error error => exact .error _
  | ok source =>
      have hretypable := SourceTree.retypable_of_read hfs h hrespells hcolon hread fun p sub =>
        halias source p sub hread
      have htree : Fallible.Agree (PackageTree.Retyped old type')
          (source.toTree l.registry system stamp)
          ((source.retype (fs.leadsTo file) type').toTree l.registry system stamp) :=
        SourceTree.toTree_retype hstandard hretypable
      simp only [Except.map]
      cases hbuild : source.toTree l.registry system stamp with
      | error error =>
          rw [hbuild] at htree
          rw [htree.eq_error]
          exact .error _
      | ok t =>
          rw [hbuild] at htree
          obtain ⟨t', hbuild', hretyped⟩ := htree.exists_ok
          rw [hbuild']
          -- `hretyped` allows a new type wherever the content is that of the file, the other two
          -- only where its path leads
          refine .ok ⟨hretyped, ?_, ?_⟩
          · intro source' i p sub hread' hpackage hnone
            obtain rfl := Except.ok.inj (hread.symm.trans hread')
            refine SourceTree.nodes_retype_of_unchanged hretypable hbuild hbuild' hpackage ?_
            exact fun d hd hleads => hnone ⟨d, hd, of_decide_eq_true hleads⟩
          · intro source' i p sub node' hread' hpackage hsole hnode' content hcontent
            obtain rfl := Except.ok.inj (hread.symm.trans hread')
            exact SourceTree.content_ne_of_retype hstandard h hrespells hbuild' hpackage hsole
              hnode' hcontent

/-- The type of an entity tells its kind, and it does not matter how the type is spelled. In every
loaded tree the content of an entity has a type that the aliases of its package expand to a tag for
entities of its kind, with the standard registry to the one tag of the kind. And if in a file a type
is spelled with an alias, which has no colon and which every package that reads a definition from
the file has for the same address, then with the address spelled out in the file, or the other way
round, a load fails as it did, or gives the same tree but for this type. -/
theorem dispatch_by_tag (l : Loader) (hstandard : l.registry.Standard) (stamp : Nat) :
    (∀ fs path t, l.load fs stamp path = .ok t ∨ l.loadSystem fs stamp path = .ok t →
      ∀ p ∈ t.packages,
        (∀ b ∈ p.blueprints, ∃ type tag,
          p.Typed l.registry b.content Constructor.blueprint type tag ∧
            (l.registry = .simos → tag = Registry.blueprintType)) ∧
        ∀ e ∈ p.enumerations, ∃ type tag,
          p.Typed l.registry e.content Constructor.enumeration type tag ∧
            (l.registry = .simos → tag = Registry.enumType)) ∧
    ∀ fs path file bytes old type type' aliasName address, fs.WellNamed →
      fs.RetypesFile file bytes old type type' →
      Alias.Respells aliasName address type type' → ':' ∉ aliasName.toList →
      (∀ source p sub, SourceTree.read fs path = .ok source → source.at? p = some sub →
        sub.source.ReadsFrom fs file → sub.source.aliases.get? aliasName = some address) →
      Fallible.Agree (Respelled fs path file old type') (l.load fs stamp path)
          (l.load (fs.replaceFile file bytes) stamp path) ∧
        Fallible.Agree (Respelled fs path file old type') (l.loadSystem fs stamp path)
          (l.loadSystem (fs.replaceFile file bytes) stamp path) := by
  constructor
  · intro fs path t hload p hp
    obtain ⟨system, source, htree⟩ := exists_toTree_of_load hload
    have hptree : p.tree = t := PackageTree.mem_packages_iff.mp hp
    constructor
    · intro b hb
      obtain ⟨type, tag, htyped⟩ := Package.blueprint_typed hstandard htree hptree hb
      exact ⟨type, tag, htyped,
        fun hsimos => Registry.eq_blueprintType (hsimos ▸ htyped.registered)⟩
    · intro e he
      obtain ⟨type, tag, htyped⟩ := Package.enumeration_typed hstandard htree hptree he
      exact ⟨type, tag, htyped,
        fun hsimos => Registry.eq_enumType (hsimos ▸ htyped.registered)⟩
  · intro fs path file bytes old type type' aliasName address hfs h hrespells hcolon halias
    exact ⟨loadWith_replaceFile hstandard hfs h hrespells hcolon halias l.system stamp,
      loadWith_replaceFile hstandard hfs h hrespells hcolon halias .own stamp⟩

/-! ### A keel in either spelling -/

/-- The text of a blueprint with the given type. -/
def keelText (type : String) : String :=
  "\x7b\"name\": \"keel\", \"type\": \"" ++ type ++ "\"\x7d"

/-- The text of metadata that declare an alias for the package of types. -/
def typesText (aliasName : String) : String :=
  "\x7b\"_meta_\": \x7b\"dependencies\": [\x7b\"alias\": \"" ++ aliasName ++
    "\", \"address\": \"system/SIMOS\"\x7d]\x7d\x7d"

/-- A package with a blueprint of the given type and an alias, and with whatever else. -/
def keelEntries (aliasName type : String) (more : List (String × FileNode)) :
    List (String × FileNode) :=
  ("keel.json", .file (keelText type).toUTF8) ::
    ("package.json", .file (typesText aliasName).toUTF8) :: more

def keelFiles (aliasName type : String) (more : List (String × FileNode)) : FileSystem where
  root := .directory [("marine", .directory (keelEntries aliasName type more))]
  workingDirectory := []

/-- A package in which there is a link to the blueprint of the package above it. -/
def linkedKeel : List (String × FileNode) :=
  [("stern", .directory [("keel.json", .link "../keel.json")])]

def keelLocation : Location := ["marine", "keel.json"]

def keelTokens (type : String) : List Token :=
  [.openObject, .quoted (.plain "name"), .colon, .quoted (.plain "keel"), .comma,
    .quoted (.plain "type"), .colon, .quoted (.plain type), .closeObject]

def keelOutline (type : String) : Outline :=
  .object [(.plain "name", .quoted (.plain "keel")), (.plain "type", .quoted (.plain type))] none

/-- The entries are in order, so they contribute one after the other. -/
theorem read_keelFiles {aliasName type : String} {more : List (String × FileNode)}
    (hsorted : ((keelEntries aliasName type more).map Prod.fst).Pairwise (· ≤ ·)) :
    SourceTree.read (keelFiles aliasName type more) "marine" =
      (SourceTree.collect (SourceTree.readEntries (keelFiles aliasName type more) "marine"
        (keelEntries aliasName type more))).map (SourceTree.ofContributions "marine" "marine") :=
  SourceTree.read_of_sorted (by rfl) (by rfl) hsorted

/-- Where nothing else is a file, only the keel is another. -/
theorem replaceFile_keelFiles {more : List (String × FileNode)}
    (hmore : more = [] ∨ more = linkedKeel) (aliasName type type' : String) :
    (keelFiles aliasName type more).replaceFile keelLocation (keelText type').toUTF8 =
      keelFiles aliasName type' more := by
  rcases hmore with rfl | rfl <;> rfl

theorem outline_keel {type : String} (h : Token.scan (keelText type) = keelTokens type) :
    Outline.ofText (keelText type) = (keelOutline type, false) := by
  rw [Outline.ofText, h]
  rfl

/-- Another keel is another type in the same file. -/
theorem retypesFile_keelFiles {aliasName type type' : String} {more : List (String × FileNode)}
    (hold : Token.scan (keelText type) = keelTokens type)
    (hnew : Token.scan (keelText type') = keelTokens type') :
    (keelFiles aliasName type more).RetypesFile keelLocation (keelText type').toUTF8 (keelText type)
      type type' where
  exists_bytes := ⟨_, by rfl, FileSystem.textOf_toUTF8 _⟩
  exists_text := by
    refine ⟨keelText type', FileSystem.textOf_toUTF8 _, ?_⟩
    exact .mk [(.plain "name", .quoted (.plain "keel"))] [] (.plain "type") (.plain type)
      (.plain type') none false (outline_keel hold) (outline_keel hnew) (Quoted.text_plain _)
      (Quoted.text_plain _) (Quoted.text_plain _) fun _ h => absurd h List.not_mem_nil

/-- A keel is loaded with either spelling, to a blueprint for which the tag says that it is one. -/
theorem dispatch_by_tag_keel :
    let fs := keelFiles "s" "s:Blueprint" []
    let old := keelText "s:Blueprint"
    let bytes := (keelText "system/SIMOS/Blueprint").toUTF8
    standard.registry.Standard ∧ fs.WellNamed ∧
      fs.RetypesFile keelLocation bytes old "s:Blueprint" "system/SIMOS/Blueprint" ∧
      Alias.Respells "s" "system/SIMOS" "s:Blueprint" "system/SIMOS/Blueprint" ∧
      ':' ∉ "s".toList ∧
      (∀ source p sub, SourceTree.read fs "marine" = .ok source → source.at? p = some sub →
        sub.source.ReadsFrom fs keelLocation → sub.source.aliases.get? "s" = some "system/SIMOS") ∧
      ∃ t t', standard.load fs 1 "marine" = .ok t ∧
        standard.load (fs.replaceFile keelLocation bytes) 1 "marine" = .ok t' ∧
        Respelled fs "marine" keelLocation old "system/SIMOS/Blueprint" t t' ∧
        ∃ b ∈ t.root.blueprints, ∃ type tag,
          t.root.Typed .simos b.content Constructor.blueprint type tag ∧
            tag = Registry.blueprintType := by
  intro fs old bytes
  have hfs : fs.WellNamed := by decide +kernel
  have hretypes : fs.RetypesFile keelLocation bytes old "s:Blueprint" "system/SIMOS/Blueprint" :=
    retypesFile_keelFiles (by decide +kernel) (by decide +kernel)
  have hrespells : Alias.Respells "s" "system/SIMOS" "s:Blueprint" "system/SIMOS/Blueprint" :=
    @Alias.Respells.expand "s" "system/SIMOS" "Blueprint" (by decide)
  have hcolon : ':' ∉ "s".toList := by decide
  have hread : (SourceTree.read fs "marine").map
      (fun source => (source.children.length, source.source.aliases.get? "s")) =
        .ok (0, some "system/SIMOS") := by
    rw [read_keelFiles (by decide)]
    decide +kernel
  have halias : ∀ source p sub, SourceTree.read fs "marine" = .ok source →
      source.at? p = some sub → sub.source.ReadsFrom fs keelLocation →
        sub.source.aliases.get? "s" = some "system/SIMOS" := by
    intro source p sub hsource hsub _
    rw [hsource, Except.map, Except.ok.injEq, Prod.mk.injEq, List.length_eq_zero_iff] at hread
    cases p with
    | nil => exact Option.some.inj hsub ▸ hread.2
    | cons k rest =>
        obtain ⟨c, hc, -⟩ := SourceTree.at?_cons_eq_some_iff.mp hsub
        rw [hread.1] at hc
        exact nomatch hc
  have hload : (standard.load fs 1 "marine").map (fun t => t.root.blueprints.map Blueprint.name) =
      .ok ["keel"] := by
    rw [load, loadWith, read_keelFiles (by decide)]
    decide +kernel
  obtain ⟨t, hload, hnames⟩ := Fallible.map_eq_ok_iff.mp hload
  obtain ⟨b, _, hblueprints, -, -⟩ := List.map_eq_cons_iff.mp hnames
  obtain ⟨htyped, hspelling⟩ := dispatch_by_tag standard Registry.standard_simos 1
  have hagree := (hspelling fs "marine" keelLocation bytes old _ _ _ _ hfs hretypes hrespells hcolon
    halias).1
  rw [hload] at hagree
  obtain ⟨t', hload', hrespelled⟩ := hagree.exists_ok
  have hb : b ∈ t.root.blueprints := hblueprints ▸ List.mem_cons_self
  obtain ⟨type, tag, hb', htag⟩ :=
    (htyped fs "marine" t (.inl hload) t.root (PackageTree.mem_packages_iff.mpr rfl)).1 b hb
  exact ⟨Registry.standard_simos, hfs, hretypes, hrespells, hcolon, halias, t, t', hload, hload',
    hrespelled, b, hb, type, tag, hb', htag rfl⟩

/-! ### Aliases that are not found -/

/-- With the alias spelled out the keel is loaded, be there a colon in the name of the alias or a
link to the keel in a package that has no alias; with the alias it is not. -/
theorem spelling_decides_load :
    (let fs := keelFiles "x:y" "system/SIMOS/Blueprint" []
      let bytes := (keelText "x:y:Blueprint").toUTF8
      fs.WellNamed ∧ fs.RetypesFile keelLocation bytes (keelText "system/SIMOS/Blueprint")
        "system/SIMOS/Blueprint" ("x:y" ++ ":" ++ "Blueprint") ∧
      ':' ∉ ("system/SIMOS" ++ "/" ++ "Blueprint").toList ∧
      (∃ t, standard.load fs 1 "marine" = .ok t ∧ t.root.alias? "x:y" = some "system/SIMOS") ∧
      standard.load (fs.replaceFile keelLocation bytes) 1 "marine" =
        .error (.build (.unresolvedAlias "x" "marine"))) ∧
    (let fs := keelFiles "s" "system/SIMOS/Blueprint" linkedKeel
      let bytes := (keelText "s:Blueprint").toUTF8
      fs.WellNamed ∧ fs.RetypesFile keelLocation bytes (keelText "system/SIMOS/Blueprint")
        "system/SIMOS/Blueprint" ("s" ++ ":" ++ "Blueprint") ∧
      ':' ∉ ("system/SIMOS" ++ "/" ++ "Blueprint").toList ∧
      (∃ t, standard.load fs 1 "marine" = .ok t ∧ t.root.alias? "s" = some "system/SIMOS") ∧
      standard.load (fs.replaceFile keelLocation bytes) 1 "marine" =
        .error (.build (.unresolvedAlias "s" "stern"))) := by
  refine ⟨⟨by decide +kernel, ?_, by decide, ?_, ?_⟩, by decide +kernel, ?_, by decide, ?_, ?_⟩
  -- a type is cut at its first colon, so of the alias `x:y` only `x` is looked up
  · exact retypesFile_keelFiles (by decide +kernel) (by decide +kernel)
  · have hload : (standard.load (keelFiles "x:y" "system/SIMOS/Blueprint" []) 1 "marine").map
        (fun t => t.root.alias? "x:y") = .ok (some "system/SIMOS") := by
      rw [load, loadWith, read_keelFiles (by decide)]
      decide +kernel
    exact Fallible.map_eq_ok_iff.mp hload
  · have hload : (standard.load ((keelFiles "x:y" "system/SIMOS/Blueprint" []).replaceFile
        keelLocation (keelText "x:y:Blueprint").toUTF8) 1 "marine").map (fun _ => ()) =
          .error (.build (.unresolvedAlias "x" "marine")) := by
      rw [replaceFile_keelFiles (.inl rfl), load, loadWith, read_keelFiles (by decide)]
      decide +kernel
    exact Fallible.map_eq_error_iff.mp hload
  -- the link has the keel read in `stern` too, where there are no aliases
  · exact retypesFile_keelFiles (by decide +kernel) (by decide +kernel)
  · have hload : (standard.load (keelFiles "s" "system/SIMOS/Blueprint" linkedKeel) 1 "marine").map
        (fun t => t.root.alias? "s") = .ok (some "system/SIMOS") := by
      rw [load, loadWith, read_keelFiles (by decide)]
      decide +kernel
    exact Fallible.map_eq_ok_iff.mp hload
  · have hload : (standard.load ((keelFiles "s" "system/SIMOS/Blueprint" linkedKeel).replaceFile
        keelLocation (keelText "s:Blueprint").toUTF8) 1 "marine").map (fun _ => ()) =
          .error (.build (.unresolvedAlias "s" "stern")) := by
      rw [replaceFile_keelFiles (.inr rfl), load, loadWith, read_keelFiles (by decide)]
      decide +kernel
    exact Fallible.map_eq_error_iff.mp hload

end Loader

end BlueprintPackages
