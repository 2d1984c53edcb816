import BlueprintPackages.Proofs.Files.Pruning
import BlueprintPackages.Proofs.Source.FirstFault
import BlueprintPackages.Proofs.Source.OwnFiles
import BlueprintPackages.Proofs.Tree.Loaded

/-!
# Entries that do not count

Two kinds of entries are no part of a package (`FileSystem.Ignored`): what is no directory and has
a name that stands for nothing, and a link that leads to a directory, whatever its name. As long as
no walk comes by such an entry (`FileSystem.Detached`), a load is the same without it.

A load goes from the directory it is given to the real directories in it (`FileSystem.Visits`). On
the way no path passes the entry, so every entry but this one is read as before, and this one
contributes nothing and may be left out of the order (`SourceTree.readDirectory_without`). All other
entries count, each in its own place (`SourceTree.UsesEntries`).

Whether a link leads to a directory is asked by its path, and that of an entry can be too long where
that of its directory is not. Then the link is a file that cannot be read
(`Loader.distant_link_is_read`).
-/

namespace BlueprintPackages

/-! ## Names that stand for nothing -/

namespace FileRole

variable {name : String}

/-- The extension `json` is what follows the last dot of a name, with something before that dot. -/
theorem extension?_eq_json_iff :
    Path.extension? name = some "json" ↔ ∃ stem, stem ≠ "" ∧ name = stem ++ ".json" := by
  have hdot : '.' ∉ "json".toList := by decide
  unfold Path.extension?
  constructor
  · intro h
    split at h
    · next c before after hcut =>
      obtain ⟨hname, -⟩ := Text.cutLast?_eq_some hcut
      have hafter : after = "json".toList := by
        rw [← Option.some.inj h, String.toList_ofList]
      refine ⟨String.ofList (c :: before), by simp, ?_⟩
      rw [← String.toList_inj, hname, hafter]
      simp
    · exact nomatch h
  · rintro ⟨stem, hstem, rfl⟩
    have htext : (stem ++ ".json").toList = stem.toList ++ '.' :: "json".toList := by simp
    -- `json` has no dot, so the dot before it is the last one of the name
    rw [htext, Text.cutLast?_append _ hdot]
    cases hchars : stem.toList with
    | nil => exact absurd (String.toList_eq_nil_iff.mp hchars) hstem
    | cons c rest => rfl

/-- A name stands for nothing if it is neither of the two fixed ones and has no such extension. -/
theorem ofName?_eq_none_iff :
    ofName? name = none ↔ name ≠ "package.json" ∧ name ≠ "__versions__.json" ∧
      ∀ stem, stem ≠ "" → name ≠ stem ++ ".json" := by
  have hextension : ¬ Path.extension? name = some "json" ↔
      ∀ stem, stem ≠ "" → name ≠ stem ++ ".json" := by
    rw [extension?_eq_json_iff]
    simp
  rw [← hextension, ofName?]
  simp only [metadataFile, versionsFile, definitionExtension]
  by_cases hmetadata : name = "package.json"
  · simp [hmetadata]
  · by_cases hversions : name = "__versions__.json"
    · simp [hversions]
    · by_cases hjson : Path.extension? name = some "json" <;> simp [hmetadata, hversions, hjson]

end FileRole

namespace FileSystem

variable {fs : FileSystem} {path name : String} {place names location : Location}
  {entries : List (String × FileNode)}

/-! ## Entries that are ignored -/

/-- The entry at a place is no part of a package: it is no directory and has a name that stands for
nothing, or it is a link that leads to a directory, if the load of the path comes to it at all, by
its path from there. -/
inductive Ignored (fs : FileSystem) (path : String) : Location → Prop
  | unnamed {directory : Location} {name : String} {node : FileNode}
      (hat : fs.root.at? (directory ++ [name]) = some node)
      (hnode : ∀ entries, node ≠ .directory entries) (hmetadata : name ≠ "package.json")
      (hversions : name ≠ "__versions__.json")
      (hextension : ∀ stem, stem ≠ "" → name ≠ stem ++ ".json") :
      Ignored fs path (directory ++ [name])
  | directoryLink {directory : Location} {name target : String}
      (hat : fs.root.at? (directory ++ [name]) = some (.link target))
      (hleads : ∀ base names, fs.locate path = .ok base → base ++ names = directory →
        fs.isDirectory (Path.join (Path.joinAll path names) name) = true) :
      Ignored fs path (directory ++ [name])

/-- Neither the path nor the target of another link passes the place. -/
structure Detached (fs : FileSystem) (path : String) (place : Location) : Prop where
  path : ¬ fs.Passes place (start fs.workingDirectory path) (Path.steps path)
  links : ∀ directory name target, fs.root.at? (directory ++ [name]) = some (.link target) →
    directory ++ [name] ≠ place →
      ¬ fs.Passes place (start directory target) (Path.steps target)

theorem Ignored.not_directory (h : fs.Ignored path place) (entries : List (String × FileNode)) :
    fs.root.at? place ≠ some (.directory entries) := by
  cases h with
  | unnamed hat hnode =>
      rw [hat]
      exact fun heq => hnode entries (Option.some.inj heq)
  | directoryLink hat =>
      rw [hat]
      exact nofun

theorem Ignored.at?_without (h : fs.Ignored path place) :
    (fs.without place).root.at? place = none := by
  refine at?_without_self fs ?_
  cases h <;> exact List.append_ne_nil_of_right_ne_nil _ (List.cons_ne_nil _ _)

/-! ## The directories of a load -/

/-- The load of a path comes to a directory by some names, without passing the place. -/
structure Visits (fs : FileSystem) (path : String) (place names location : Location)
    (entries : List (String × FileNode)) : Prop where
  locate : fs.locate (Path.joinAll path names) = .ok location
  at? : fs.root.at? location = some (.directory entries)
  base : ∃ base, fs.locate path = .ok base ∧ base ++ names = location
  path : ¬ fs.Passes place (start fs.workingDirectory (Path.joinAll path names))
    (Path.steps (Path.joinAll path names))

namespace Visits

variable (hvisits : fs.Visits path place names location entries)

include hvisits

theorem entries_eq : fs.entries (Path.joinAll path names) = .ok entries :=
  entries_eq_ok_iff.mpr (node_eq_ok_iff.mpr ⟨location, hvisits.locate, hvisits.at?⟩)

theorem mem_iff (hfs : fs.WellNamed) {e : String × FileNode} :
    e ∈ entries ↔ fs.root.at? (location ++ [e.1]) = some e.2 := by
  rw [FileNode.at?_concat hvisits.at?]
  exact (hfs.lookup_iff hvisits.entries_eq).symm

/-- No path of another entry of the directory passes the place. -/
theorem not_passes_join (hfs : fs.WellNamed) (hignored : fs.Ignored path place)
    (hdetached : fs.Detached path place) {node : FileNode} (hmem : (name, node) ∈ entries)
    (hne : location ++ [name] ≠ place) :
    ¬ fs.Passes place (start fs.workingDirectory (Path.join (Path.joinAll path names) name))
      (Path.steps (Path.join (Path.joinAll path names) name)) := by
  have hname : IsEntryName name := hfs.isEntryName hvisits.entries_eq hmem
  intro hpasses
  -- the path meets the place on the way to the directory, at the entry, or behind a link there
  rcases passes_join hvisits.locate hname hpasses with hfirst | hlast
  · exact hvisits.path hfirst
  · rcases passes_last hvisits.at? hignored.not_directory hlast with heq | ⟨target, hlookup, hlater⟩
    · exact hne heq
    · have hat : fs.root.at? (location ++ [name]) = some (.link target) :=
        (FileNode.at?_concat hvisits.at? name).trans hlookup
      exact hdetached.links location name target hat hne hlater

/-- The load goes on to the real directories in a directory that it comes to. -/
theorem concat (hfs : fs.WellNamed) (hignored : fs.Ignored path place)
    (hdetached : fs.Detached path place) {below : List (String × FileNode)}
    (hmem : (name, FileNode.directory below) ∈ entries)
    (hcheck : checkPath (Path.join (Path.joinAll path names) name) = .ok ()) :
    fs.Visits path place (names ++ [name]) (location ++ [name]) below := by
  have hname : IsEntryName name := hfs.isEntryName hvisits.entries_eq hmem
  have hat := (hvisits.mem_iff hfs).mp hmem
  have hne : location ++ [name] ≠ place := fun heq => hignored.not_directory below (heq ▸ hat)
  have hlookup := (FileNode.at?_concat hvisits.at? name).symm.trans hat
  obtain ⟨base, hbase, hnames⟩ := hvisits.base
  refine ⟨?_, hat, ⟨base, hbase, by rw [← hnames, List.append_assoc]⟩, ?_⟩
  · rw [Path.joinAll_concat, locate_join hvisits.locate hvisits.at? hname hlookup nofun, hcheck]
    rfl
  · rw [Path.joinAll_concat]
    exact hvisits.not_passes_join hfs hignored hdetached hmem hne

end Visits

end FileSystem

/-! ## Reading without the entry -/

namespace SourceTree

variable {fs : FileSystem} {path name : String} {place names location : Location}
  {entries : List (String × FileNode)}

theorem ofContributions_nothing (name path : String) (before after : List Contribution) :
    ofContributions name path (before ++ .nothing :: after) =
      ofContributions name path (before ++ after) := by
  rw [ofContributions, ofContributions]
  simp only [List.findSome?_append, List.filterMap_append]
  rfl

section Without

variable (hfs : fs.WellNamed) (hignored : fs.Ignored path place)
  (hdetached : fs.Detached path place)

include hfs hignored

/-- The entry contributes nothing. -/
theorem readEntry_ignored (hvisits : fs.Visits path place names location entries)
    {e : String × FileNode} (he : e ∈ entries) (hplace : location ++ [e.1] = place) :
    readEntry fs (Path.joinAll path names) e = .ok .nothing := by
  have hat := (hvisits.mem_iff hfs).mp he
  -- a name without a use is read as nothing, and a link to a directory is passed over
  cases hignored with
  | @unnamed directory other node hother hnode hmetadata hversions hextension =>
      obtain ⟨rfl, rfl⟩ := List.append_singleton_inj.mp hplace
      obtain rfl := Option.some.inj (hother.symm.trans hat)
      have hname : IsEntryName e.1 := hfs.isEntryName hvisits.entries_eq he
      have hlookup := (hfs.lookup_iff hvisits.entries_eq).mpr he
      have hrole := FileRole.ofName?_eq_none_iff.mpr ⟨hmetadata, hversions, hextension⟩
      rw [readEntry_of_not_directory hvisits.entries_eq hname hlookup hnode, readFile, hrole,
        ite_self]
  | @directoryLink directory other target hother hleads =>
      obtain ⟨rfl, rfl⟩ := List.append_singleton_inj.mp hplace
      obtain ⟨base, hbase, hnames⟩ := hvisits.base
      obtain ⟨name, node⟩ := e
      obtain rfl := Option.some.inj (hother.symm.trans hat)
      rw [readEntry, readNode, hleads base names hbase hnames]
      rfl

include hdetached

/-- Another entry of the directory contributes what it did, if what a real directory is read to does
not change. -/
theorem readEntry_without (hvisits : fs.Visits path place names location entries)
    {node : FileNode} (hmem : (name, node) ∈ entries) (hne : location ++ [name] ≠ place)
    (hbelow : ∀ below, node = .directory below →
      fs.Visits path place (names ++ [name]) (location ++ [name]) below →
        readDirectory (fs.without place) name (Path.joinAll path (names ++ [name]))
            (FileNode.withoutEntries place (location ++ [name]) below) =
          readDirectory fs name (Path.joinAll path (names ++ [name])) below) :
    readEntry (fs.without place) (Path.joinAll path names)
        (name, node.without place (location ++ [name])) =
      readEntry fs (Path.joinAll path names) (name, node) := by
  cases node with
  | file bytes => rfl
  | link target =>
      -- where a link leads is asked of the whole file system, so its walk must not pass the place
      have hpasses := hvisits.not_passes_join hfs hignored hdetached hmem hne
      rw [FileNode.without, readEntry, readEntry, readNode, readNode,
        FileSystem.isDirectory_without hignored.not_directory hpasses,
        FileSystem.readText_without hignored.not_directory hpasses]
  | directory below =>
      rw [FileNode.without, readEntry_directory, readEntry_directory]
      cases hcheck : FileSystem.checkPath (Path.join (Path.joinAll path names) name) with
      | error error => rfl
      | ok _ =>
          have hread := hbelow below rfl (hvisits.concat hfs hignored hdetached hmem hcheck)
          rw [Path.joinAll_concat] at hread
          rw [hread]

theorem readDirectory_without {node : FileNode} (hnode : node = .directory entries)
    (hvisits : fs.Visits path place names location entries) (own : String) :
    readDirectory (fs.without place) own (Path.joinAll path names)
        (FileNode.withoutEntries place location entries) =
      readDirectory fs own (Path.joinAll path names) entries := by
  induction node using FileNode.induction generalizing names location entries own with
  | file _ => exact nomatch hnode
  | link _ => exact nomatch hnode
  | directory entries' ih =>
      obtain rfl := FileNode.directory.inj hnode
      have hnodup := hfs.nodup_names hvisits.entries_eq
      -- `ih` speaks of directories that are visited, and the real ones in a visited directory are
      have hkept : ∀ e ∈ (sortByName entries').filter fun e => location ++ [e.1] ≠ place,
          readEntry (fs.without place) (Path.joinAll path names)
              (e.1, e.2.without place (location ++ [e.1])) =
            (readEntry fs (Path.joinAll path names) e).map id := by
        intro e he
        obtain ⟨hmem, hne⟩ := List.mem_filter.mp he
        rw [mem_sortByName_iff] at hmem
        rw [Except.map_id, id]
        exact readEntry_without hfs hignored hdetached hvisits hmem (of_decide_eq_true hne)
          fun below hbelow hvisits' => ih e hmem hbelow hvisits' e.1
      have hdropped : ∀ e ∈ sortByName entries', decide (location ++ [e.1] ≠ place) = false →
          readEntry fs (Path.joinAll path names) e = .ok .nothing := by
        intro e he hplace
        exact readEntry_ignored hfs hignored hvisits (mem_sortByName_iff.mp he)
          (by simpa using hplace)
      -- taking away and sorting change places, and what is taken away contributes nothing
      rw [readDirectory_eq_mapM, readDirectory_eq_mapM, FileNode.withoutEntries_eq, sortByName_map,
        sortByName_filter hnodup, Fallible.mapM_map_eq_of_forall hkept, List.map_id_fun,
        Except.map_id, id]
      exact Fallible.map_mapM_filter hdropped (ofContributions_nothing own _)

/-- What is read at the path is the same without the entry. -/
theorem read_without : read (fs.without place) path = read fs path := by
  rw [read, read, FileSystem.nameOf_without hignored.not_directory hdetached.path]
  obtain ⟨error, hlist, hlist'⟩ | ⟨location, entries, hlocate, hat, hlist, hlist'⟩ :=
    FileSystem.entries_without hignored.not_directory hdetached.path
  · rw [hlist, hlist']
    rfl
  · have hvisits : fs.Visits path place [] location entries :=
      ⟨hlocate, hat, ⟨location, hlocate, List.append_nil location⟩, hdetached.path⟩
    have hread : ∀ own, assemble own path (readEntries (fs.without place) path
        (FileNode.withoutEntries place location entries)) =
          assemble own path (readEntries fs path entries) :=
      readDirectory_without hfs hignored hdetached rfl hvisits
    simp only [hlist, hlist', ReadError.ofAccess, bind, Except.bind, hread]

end Without

/-! ## Every other entry -/

/-- All entries of the directory at a path that are not ignored are used for what they are: the
files of the two fixed names, every file with the extension `json` for one definition, and every
real directory for one subpackage, these in the order of their names. -/
structure UsesEntries (fs : FileSystem) (path : String) (entries : List (String × FileNode))
    (t : SourceTree) : Prop where
  source : t.source.OfDirectory fs path entries
  metadata : fs.PackageFile path entries ["package.json"] .metadata → t.source.metadata.isSome
  versions : fs.PackageFile path entries ["__versions__.json"] .versions → t.source.versions.isSome
  definitions : ∃ names : List String, names.Pairwise (· < ·) ∧
    (∀ name, name ∈ names ↔ fs.PackageFile path entries [name] .definition) ∧
    List.Forall₂ (fun name d => ∃ text content, fs.readText (Path.join path name) = .ok text ∧
      Json.ofText text = .ok (.object content) ∧ d = ⟨Path.join path name, content⟩)
      names t.source.definitions
  children : ∃ directories : List (String × List (String × FileNode)),
    (directories.map Prod.fst).Pairwise (· < ·) ∧
    (∀ name below, (name, below) ∈ directories ↔ (name, FileNode.directory below) ∈ entries) ∧
    List.Forall₂ (fun d c => read fs (Path.join path d.1) = .ok c) directories t.children

section Uses

variable {t sub : SourceTree} (hfs : fs.WellNamed)

include hfs

/-- A file for a definition contributes one. -/
theorem exists_definition_of_readEntry (hlist : fs.entries path = .ok entries)
    {e : String × FileNode} (he : e ∈ entries) {c : Contribution}
    (hfile : fs.PackageFile path entries [e.1] .definition) (h : readEntry fs path e = .ok c) :
    ∃ text content, fs.readText (Path.join path e.1) = .ok text ∧
      Json.ofText text = .ok (.object content) ∧
      c.definition? = some ⟨Path.join path e.1, content⟩ := by
  obtain ⟨node, hlookup, hnode, hlink, hrole⟩ := FileSystem.packageFile_singleton_iff.mp hfile
  obtain rfl := Option.some.inj
    (((hfs.lookup_iff hlist).mpr he).symm.trans hlookup)
  have hname : IsEntryName e.1 := hfs.isEntryName hlist he
  rw [readEntry_of_not_directory hlist hname hlookup hnode, hlink, if_neg Bool.false_ne_true,
    readFile, hrole] at h
  obtain ⟨text, htext, hc⟩ := Fallible.bind_eq_ok_iff.mp h
  obtain ⟨content, hcontent, rfl⟩ := FileRole.contribution_definition_iff.mp hc
  exact ⟨text, content, ReadError.ofAccess_eq_ok_iff.mp htext, hcontent, rfl⟩

/-- No other entry contributes a definition. -/
theorem packageFile_of_definition (hlist : fs.entries path = .ok entries)
    {e : String × FileNode} (he : e ∈ entries) {c : Contribution} {d : Definition}
    (h : readEntry fs path e = .ok c) (hd : c.definition? = some d) :
    fs.PackageFile path entries [e.1] .definition := by
  cases c with
  | definition found =>
      obtain ⟨text, hspells, -⟩ := (readEntry_eq_ok_iff hfs hlist he rfl).mp h
      exact hspells.file
  | metadata | versions | subpackage | nothing => exact nomatch hd

/-- The definitions are those of the files for definitions, one for each, in the order of their
names. -/
theorem exists_definition_names (hlist : fs.entries path = .ok entries)
    {contributions : List Contribution}
    (h : List.Forall₂ (fun e c => readEntry fs path e = .ok c) (sortByName entries)
      contributions) :
    ∃ names : List String, names.Pairwise (· < ·) ∧
      (∀ name, name ∈ names ↔ fs.PackageFile path entries [name] .definition) ∧
      List.Forall₂ (fun name d => ∃ text content, fs.readText (Path.join path name) = .ok text ∧
        Json.ofText text = .ok (.object content) ∧ d = ⟨Path.join path name, content⟩)
        names (contributions.filterMap Contribution.definition?) := by
  classical
  have hnodup := hfs.nodup_names hlist
  refine ⟨((sortByName entries).filter fun e => fs.PackageFile path entries [e.1] .definition).map
    Prod.fst, List.pairwise_map.mpr ((sortByName_pairwise hnodup).filter _), ?_, ?_⟩
  · intro name
    simp only [List.mem_map, List.mem_filter, decide_eq_true_eq]
    constructor
    · rintro ⟨e, ⟨-, hfile⟩, rfl⟩
      exact hfile
    · intro hfile
      obtain ⟨node, hlookup, -⟩ := FileSystem.packageFile_singleton_iff.mp hfile
      have he := mem_sortByName_iff.mpr (OrderedMap.mem_of_lookup hlookup)
      exact ⟨_, ⟨he, hfile⟩, rfl⟩
  · have hes : ∀ e ∈ sortByName entries, e ∈ entries := fun e => mem_sortByName_iff.mp
    -- the entries that are read are some of those listed, which stay the same in the induction
    generalize sortByName entries = es at h hes
    induction h with
    | nil => exact .nil
    | @cons e c es contributions hread _ ih =>
        obtain ⟨he, hes⟩ := List.forall_mem_cons.mp hes
        by_cases hfile : fs.PackageFile path entries [e.1] .definition
        · obtain ⟨text, content, htext, hcontent, hd⟩ :=
            exists_definition_of_readEntry hfs hlist he hfile hread
          rw [List.filter_cons_of_pos (by simpa using hfile), List.filterMap_cons_some hd]
          exact .cons ⟨text, content, htext, hcontent, rfl⟩ (ih hes)
        · have hnone : c.definition? = none :=
            Option.eq_none_iff_forall_ne_some.mpr fun _ hd =>
              hfile (packageFile_of_definition hfs hlist he hread hd)
          rw [List.filter_cons_of_neg (by simpa using hfile), List.filterMap_cons_none hnone]
          exact ih hes

/-- The subpackages are those of the real directories, one for each, in the order of their names. -/
theorem exists_child_directories (hlist : fs.entries path = .ok entries) {own : String}
    (hread : readDirectory fs own path entries = .ok t) :
    ∃ directories : List (String × List (String × FileNode)),
      (directories.map Prod.fst).Pairwise (· < ·) ∧
      (∀ name below, (name, below) ∈ directories ↔ (name, FileNode.directory below) ∈ entries) ∧
      List.Forall₂ (fun d c => read fs (Path.join path d.1) = .ok c) directories t.children := by
  have hnodup := hfs.nodup_names hlist
  have hchildren := forall₂_children hread
  refine ⟨subdirectories entries, subdirectories_pairwise hnodup,
    fun name below => mem_subdirectories_iff, ?_⟩
  refine List.forall₂_iff_get.mpr ⟨hchildren.length_eq, fun i hi hi' => ?_⟩
  have hmem := mem_subdirectories_iff.mp (List.getElem_mem hi)
  obtain ⟨hlist', hname'⟩ := entries_join_of_readDirectory hfs hlist hread hmem
  exact read_eq_ok_iff.mpr ⟨_, _, hname', hlist', hchildren.get hi hi'⟩

theorem usesEntries_of_read (hread : read fs path = .ok t) :
    ∃ entries, t.UsesEntries fs path entries := by
  obtain ⟨name, entries, hname, hlist, hread⟩ := read_eq_ok_iff.mp hread
  have hsource := ofDirectory_of_readDirectory hfs hlist hname hread
  have hchildren := exists_child_directories hfs hlist hread
  obtain ⟨contributions, hall, rfl⟩ := readDirectory_eq_ok_iff.mp hread
  refine ⟨entries, hsource, ?_, ?_, exists_definition_names hfs hlist hall, hchildren⟩
  · intro hfile
    obtain ⟨text, c, hspells, hc⟩ := exists_contribution_of_packageFile hfs hlist hall hfile
    obtain ⟨m, hm, -⟩ := FileRole.contribution_metadata_iff.mp hc
    exact Option.isSome_of_mem ((hsource.metadata m).mpr ⟨text, hspells, hm⟩)
  · intro hfile
    obtain ⟨text, c, hspells, hc⟩ := exists_contribution_of_packageFile hfs hlist hall hfile
    obtain ⟨table, htable, -⟩ := FileRole.contribution_versions_iff.mp hc
    exact Option.isSome_of_mem ((hsource.versions table).mpr ⟨text, hspells, htable⟩)

/-- Every package that was read uses the entries of its directory. -/
theorem exists_usesEntries_of_at? (hread : read fs path = .ok t) {p : Place}
    (hp : t.at? p = some sub) : ∃ directory entries, sub.UsesEntries fs directory entries := by
  induction p generalizing t path with
  | nil =>
      obtain rfl := Option.some.inj hp
      exact ⟨path, usesEntries_of_read hfs hread⟩
  | cons k rest ih =>
      obtain ⟨c, hc, hrest⟩ := at?_cons_eq_some_iff.mp hp
      obtain ⟨entries, huses⟩ := usesEntries_of_read hfs hread
      obtain ⟨directories, -, -, hall⟩ := huses.children
      obtain ⟨hk, rfl⟩ := List.getElem?_eq_some_iff.mp hc
      exact ih (hall.get (hall.length_eq ▸ hk) hk) hrest

end Uses

end SourceTree

/-! ## Loading -/

namespace Loader

variable {fs : FileSystem}

/-- Entries that are no part of a package do not influence a load. Whoever takes away an entry that
is no directory and has a name that stands for nothing, or a link that leads to a directory, changes
neither the tree nor the error that a load comes to, so long as neither the path of the load nor the
target of another link passes the entry. In the directories of a loaded tree every other entry is
used: a file of one of the two fixed names for the metadata or the versions, any other file with the
extension `json` for one definition, and a real directory for a subpackage. -/
theorem ignored_or_used (hfs : fs.WellNamed) (l : Loader) (stamp : Nat) (path : String) :
    (∀ place, fs.Ignored path place → fs.Detached path place →
      (fs.without place).root.at? place = none ∧
        l.load (fs.without place) stamp path = l.load fs stamp path ∧
        l.loadSystem (fs.without place) stamp path = l.loadSystem fs stamp path) ∧
    ∀ t, l.load fs stamp path = .ok t ∨ l.loadSystem fs stamp path = .ok t →
      ∃ system source, SourceTree.read fs path = .ok source ∧
        source.toTree l.registry system stamp = .ok t ∧
        ∀ p sub, source.at? p = some sub →
          ∃ directory entries, sub.UsesEntries fs directory entries := by
  constructor
  · intro place hignored hdetached
    have hread := SourceTree.read_without hfs hignored hdetached
    refine ⟨hignored.at?_without, ?_, ?_⟩
    · rw [load, load, loadWith, loadWith, hread]
    · rw [loadSystem, loadSystem, loadWith, loadWith, hread]
  · intro t hload
    obtain ⟨system, source, hread, htree⟩ := exists_read_of_load hload
    exact ⟨system, source, hread, htree, fun p sub hp =>
      SourceTree.exists_usesEntries_of_at? hfs hread hp⟩

/-! ### A link to a directory -/

/-- A directory with nothing in it but a link to itself that is called like an entity file. -/
def loopFiles : FileSystem where
  root := .directory [("hold", .directory [("loop.json", .link ".")])]
  workingDirectory := []

theorem eq_of_link_loopFiles {location : Location} {target : String}
    (h : loopFiles.root.at? location = some (.link target)) : location = ["hold", "loop.json"] := by
  rcases FileNode.at?_single_eq_some h with ⟨-, heq⟩ | ⟨rest, rfl, hhold⟩
  · exact nomatch heq
  · rcases FileNode.at?_single_eq_some hhold with ⟨-, heq⟩ | ⟨more, rfl, hlink⟩
    · exact nomatch heq
    · cases more with
      | nil => rfl
      | cons name rest => exact nomatch hlink

/-- A slash at the end of a path passes nothing. -/
theorem passes_withSlashes {path : String} {place : Location} (hpath : path ≠ "") {n : Nat}
    (h : fs.Passes place (FileSystem.start fs.workingDirectory (withSlashes path n))
      (Path.steps (withSlashes path n))) :
    fs.Passes place (FileSystem.start fs.workingDirectory path) (Path.steps path) := by
  induction n with
  | zero => exact h
  | succ n ih =>
      have hne : withSlashes path n ≠ "" := by
        cases n with
        | zero => exact hpath
        | succ n => simp [withSlashes]
      -- one more slash is one more step, and the walk stays where it is
      rw [withSlashes, Path.steps_append_separator, FileSystem.start, Path.isAbsolute_append hne,
        ← FileSystem.start] at h
      exact ih h.of_stay

/-- The link is the only one, and no path to the directory passes it. -/
theorem detached_loopFiles (n : Nat) :
    loopFiles.Detached (withSlashes "hold" n) ["hold", "loop.json"] := by
  have hlink : loopFiles.root.at? ["hold", "loop.json"] = some (.link ".") := by rfl
  refine ⟨fun hpasses => ?_, ?_⟩
  · have hhold : loopFiles.Passes ["hold", "loop.json"] [] [.down "hold"] :=
      passes_withSlashes (by decide) hpasses
    rcases FileSystem.passes_last (by rfl) (by rw [hlink]; exact nofun) hhold with
      heq | ⟨target, hlookup, -⟩
    · exact absurd heq (by decide)
    · exact nomatch hlookup
  · intro directory name target hat hne
    exact absurd (eq_of_link_loopFiles hat) hne

/-- Loaded by its short path, the directory is an empty package, with the link and without it. -/
theorem ignored_or_used_loop :
    loopFiles.WellNamed ∧ loopFiles.Ignored "hold" ["hold", "loop.json"] ∧
      loopFiles.Detached "hold" ["hold", "loop.json"] ∧
      standard.load (loopFiles.without ["hold", "loop.json"]) 1 "hold" =
        standard.load loopFiles 1 "hold" ∧
      ∃ t, standard.load loopFiles 1 "hold" = .ok t := by
  have hfs : loopFiles.WellNamed := by decide +kernel
  have hdetached := detached_loopFiles 0
  have hignored : loopFiles.Ignored "hold" ["hold", "loop.json"] := by
    refine @FileSystem.Ignored.directoryLink _ _ ["hold"] _ _ (by rfl) ?_
    intro base names hbase hnames
    obtain rfl : base = ["hold"] := Except.ok.inj (hbase.symm.trans (by rfl))
    obtain rfl : names = [] := List.append_right_eq_self.mp hnames
    rfl
  have hname : loopFiles.nameOf "hold" = .ok "hold" := by rfl
  have hload : (standard.load loopFiles 1 "hold").isOk = true := by
    rw [load, loadWith, SourceTree.read_of_sorted hname (by rfl) (by decide)]
    decide +kernel
  have hwithout := ((ignored_or_used hfs standard 1 "hold").1 _ hignored hdetached).2.1
  exact ⟨hfs, hignored, hdetached, hwithout, Fallible.exists_ok_of_isOk hload⟩

/-- A path to the directory that can no longer be extended by the name of the link. -/
def distantPath : String := withSlashes "hold" 4090

theorem entries_distantPath {fs : FileSystem} {entries : List (String × FileNode)}
    (h : fs.entries "hold" = .ok entries) : fs.entries distantPath = .ok entries := by
  have hhold : "hold".utf8ByteSize = 4 := by rfl
  refine entries_withSlashes h ?_
  rw [hhold, FileSystem.pathLimit]
  decide

theorem checkPath_distant : FileSystem.checkPath (Path.join distantPath "loop.json") =
    .error .other := by
  have hlist : loopFiles.entries distantPath = .ok _ := entries_distantPath (by rfl)
  have htext := (FileSystem.checkPath_eq_ok_iff.mp (FileSystem.checkPath_of_entries hlist)).1
  have hjoin : Path.join distantPath "loop.json" = distantPath ++ "loop.json" := by
    rw [distantPath, withSlashes, Path.join_append_separator]
  have hsize : distantPath.utf8ByteSize = 4094 := by
    have hhold : "hold".utf8ByteSize = 4 := by rfl
    rw [distantPath, utf8ByteSize_withSlashes, hhold]
  have hsize' : "loop.json".utf8ByteSize = 9 := by rfl
  rw [hjoin, FileSystem.checkPath_of_checkText (FileSystem.checkText_append htext (by decide)),
    String.utf8ByteSize_append, hsize, hsize', FileSystem.pathLimit]
  rfl

/-- By its long path the load of a directory fails because of a link that leads to the directory
itself, and it succeeds without the link. -/
theorem distant_link_is_read :
    loopFiles.WellNamed ∧ loopFiles.Detached distantPath ["hold", "loop.json"] ∧
      loopFiles.root.at? ["hold", "loop.json"] = some (.link ".") ∧
      loopFiles.walkFrom ["hold"] [.down "loop.json"] = .ok ["hold"] ∧
      (∃ entries, loopFiles.root.at? ["hold"] = some (.directory entries)) ∧
      standard.load loopFiles 1 distantPath =
        .error (.read (.access (Path.join distantPath "loop.json") .other)) ∧
      ∃ t, standard.load (loopFiles.without ["hold", "loop.json"]) 1 distantPath = .ok t := by
  have hname : ∀ fs : FileSystem, fs.nameOf distantPath = .ok "hold" := fun fs =>
    nameOf_withSlashes (by decide) 4090
  have hread : SourceTree.read loopFiles distantPath =
      .error (.access (Path.join distantPath "loop.json") .other) := by
    have hnode : loopFiles.node (Path.join distantPath "loop.json") = .error .other := by
      rw [FileSystem.node, FileSystem.locate, checkPath_distant]
      rfl
    rw [SourceTree.read_of_sorted (hname _) (entries_distantPath (by rfl)) (by decide),
      SourceTree.readEntries, SourceTree.readNode, FileSystem.isDirectory, FileSystem.readText,
      hnode]
    rfl
  have hwithout : SourceTree.read (loopFiles.without ["hold", "loop.json"]) distantPath =
      .ok (SourceTree.ofContributions "hold" distantPath []) := by
    rw [SourceTree.read_of_sorted (hname _) (entries_distantPath (by rfl)) .nil]
    rfl
  refine ⟨by decide +kernel, detached_loopFiles 4090, by rfl, by rfl, ⟨_, by rfl⟩, ?_, ?_⟩
  · exact (load_of_read_eq_error hread standard 1).1
  · rw [load, loadWith, hwithout]
    exact ⟨_, rfl⟩

end Loader

end BlueprintPackages
