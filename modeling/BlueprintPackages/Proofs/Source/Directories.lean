import BlueprintPackages.Proofs.Files.Opening
import BlueprintPackages.Proofs.Source.Reading
import BlueprintPackages.Proofs.Tree.Shadowing

/-!
# Packages are directories

Reading a directory goes on with the real directories in it, each of which is read as it is read by
its own path (`readNode_directory_eq_read`).

A package of a source tree stands at the location of its directory below the one that was read
(`SourceTree.location`). Every real directory has its package and every package its directory
(`exists_directory_of_at?`, `exists_place_of_directory`), and as directories are read in the order
of their names, the order of packages is that of locations (`location_before`). So the packages of a
loaded tree are, in order, the directories at all locations below the one that was loaded
(`Loader.packages_are_directories`), whatever they are called in their metadata.
-/

namespace BlueprintPackages

namespace SourceTree

variable {fs : FileSystem} {name path : String} {entries : List (String × FileNode)}
  {t sub : SourceTree}

/-- A real directory in another is read as it is read by its own path. -/
theorem readNode_directory_eq_read (hfs : fs.WellNamed) (h : fs.entries path = .ok entries)
    {below : List (String × FileNode)} (hmem : (name, FileNode.directory below) ∈ entries) :
    readNode fs name (Path.join path name) (.directory below) =
      (read fs (Path.join path name)).map .subpackage := by
  have hname : IsEntryName name := hfs.isEntryName h hmem
  have hentry : readNode fs name (Path.join path name) (.directory below) =
      readEntry fs path (name, .directory below) := rfl
  have hpath : path ≠ "" := FileSystem.ne_empty_of_checkPath (FileSystem.checkPath_of_entries h)
  rw [hentry, readEntry_directory, read, FileSystem.nameOf_join hpath hname,
    hfs.entries_join h hmem]
  cases FileSystem.checkPath (Path.join path name) <;> rfl

/-! ## Directories and children -/

/-- The name and entries of an entry that is a real directory. -/
def subdirectory? : String × FileNode → Option (String × List (String × FileNode))
  | (name, .directory below) => some (name, below)
  | _ => none

theorem subdirectory?_eq_some_iff {e : String × FileNode}
    {d : String × List (String × FileNode)} :
    subdirectory? e = some d ↔ e = (d.1, .directory d.2) := by
  obtain ⟨name, node⟩ := e
  obtain ⟨name', below⟩ := d
  cases node <;> simp [subdirectory?]

/-- The real directories among some entries, in the order of their names. -/
def subdirectories (entries : List (String × FileNode)) :
    List (String × List (String × FileNode)) :=
  (sortByName entries).filterMap subdirectory?

theorem mem_subdirectories_iff {below : List (String × FileNode)} :
    (name, below) ∈ subdirectories entries ↔ (name, FileNode.directory below) ∈ entries := by
  simp [subdirectories, List.mem_filterMap, subdirectory?_eq_some_iff]

theorem subdirectories_pairwise (h : (entries.map Prod.fst).Nodup) :
    ((subdirectories entries).map Prod.fst).Pairwise (· < ·) := by
  rw [List.pairwise_map]
  refine List.Pairwise.filterMap _ ?_ (sortByName_pairwise h)
  intro e e' hlt d hd d' hd'
  rw [subdirectory?_eq_some_iff] at hd hd'
  rw [hd, hd'] at hlt
  exact hlt

theorem subpackage?_of_readFile {text : Except AccessError String} {c : Contribution}
    (h : readFile name path text = .ok c) : c.subpackage? = none := by
  rw [readFile] at h
  split at h
  · exact Except.ok.inj h ▸ rfl
  · next role _ =>
    obtain ⟨text, -, h⟩ := Fallible.bind_eq_ok_iff.mp h
    cases role with
    | metadata =>
        obtain ⟨value, -, rfl⟩ := Fallible.map_eq_ok_iff.mp h
        rfl
    | versions =>
        obtain ⟨value, -, rfl⟩ := Fallible.map_eq_ok_iff.mp h
        rfl
    | definition =>
        obtain ⟨value, -, h⟩ := Fallible.bind_eq_ok_iff.mp h
        obtain ⟨d, -, h⟩ := Fallible.bind_eq_ok_iff.mp h
        exact Except.ok.inj h ▸ rfl

/-- Only directories are subpackages. -/
theorem forall₂_subpackages {es : List (String × FileNode)} {contributions : List Contribution}
    (h : List.Forall₂ (fun e c => readEntry fs path e = .ok c) es contributions) :
    List.Forall₂ (fun d c => readDirectory fs d.1 (Path.join path d.1) d.2 = .ok c)
      (es.filterMap subdirectory?) (contributions.filterMap Contribution.subpackage?) := by
  induction h with
  | nil => exact .nil
  | @cons e c es contributions hread _ ih =>
      obtain ⟨name, node⟩ := e
      cases node with
      | file bytes =>
          rw [List.filterMap_cons_none rfl,
            List.filterMap_cons_none (subpackage?_of_readFile hread)]
          exact ih
      | link target =>
          have hnone : c.subpackage? = none := by
            rw [readEntry, readNode] at hread
            split at hread
            · exact Except.ok.inj hread ▸ rfl
            · exact subpackage?_of_readFile hread
          rw [List.filterMap_cons_none rfl, List.filterMap_cons_none hnone]
          exact ih
      | directory below =>
          rw [readEntry_directory, Fallible.map_eq_ok_iff] at hread
          obtain ⟨child, hread, rfl⟩ := hread
          obtain ⟨-, -, hchild⟩ := Fallible.bind_eq_ok_iff.mp hread
          exact .cons hchild ih

theorem source_of_readDirectory (h : readDirectory fs name path entries = .ok t) :
    t.source.directoryName = name ∧ t.source.directory = some path := by
  obtain ⟨contributions, -, rfl⟩ := readDirectory_eq_ok_iff.mp h
  exact ⟨rfl, rfl⟩

/-- The children of a directory's source tree are the directories in it, read one by one. -/
theorem forall₂_children (h : readDirectory fs name path entries = .ok t) :
    List.Forall₂ (fun d c => readDirectory fs d.1 (Path.join path d.1) d.2 = .ok c)
      (subdirectories entries) t.children := by
  obtain ⟨contributions, hall, rfl⟩ := readDirectory_eq_ok_iff.mp h
  exact forall₂_subpackages hall

theorem exists_subdirectory_of_child (h : readDirectory fs name path entries = .ok t) {k : Nat}
    {c : SourceTree} (hc : t.children[k]? = some c) :
    ∃ below, (c.source.directoryName, FileNode.directory below) ∈ entries ∧
      readDirectory fs c.source.directoryName (Path.join path c.source.directoryName) below =
        .ok c := by
  obtain ⟨hk, rfl⟩ := List.getElem?_eq_some_iff.mp hc
  have hall := forall₂_children h
  have hk' : k < (subdirectories entries).length := hall.length_eq ▸ hk
  have hread := hall.get hk' hk
  obtain ⟨hname, -⟩ := source_of_readDirectory hread
  simp only [List.get_eq_getElem] at hread hname
  refine ⟨(subdirectories entries)[k].2, ?_, ?_⟩
  · rw [hname]
    exact mem_subdirectories_iff.mp (List.getElem_mem hk')
  · rw [hname]
    exact hread

theorem exists_child_of_subdirectory (h : readDirectory fs name path entries = .ok t)
    {subname : String} {below : List (String × FileNode)}
    (hmem : (subname, FileNode.directory below) ∈ entries) :
    ∃ (k : Nat) (c : SourceTree), t.children[k]? = some c ∧ c.source.directoryName = subname ∧
      readDirectory fs subname (Path.join path subname) below = .ok c := by
  obtain ⟨k, hk, hget⟩ := List.mem_iff_getElem.mp (mem_subdirectories_iff.mpr hmem)
  have hall := forall₂_children h
  have hk' : k < t.children.length := hall.length_eq ▸ hk
  have hread := hall.get hk hk'
  simp only [List.get_eq_getElem, hget] at hread
  exact ⟨k, _, List.getElem?_eq_getElem hk', (source_of_readDirectory hread).1, hread⟩

/-- Children stand in the order of the names of their directories. -/
theorem children_pairwise (h : readDirectory fs name path entries = .ok t)
    (hdistinct : (FileNode.directory entries).DistinctNames) :
    (t.children.map fun c => c.source.directoryName).Pairwise (· < ·) := by
  have hnames : t.children.map (fun c => c.source.directoryName) =
      (subdirectories entries).map Prod.fst := by
    refine List.ext_getElem (by simpa using (forall₂_children h).length_eq.symm) fun k hk hk' => ?_
    have hread := (forall₂_children h).get (by simpa using hk') (by simpa using hk)
    simpa using (source_of_readDirectory hread).1
  rw [hnames]
  exact subdirectories_pairwise hdistinct.entries_good

/-! ## Locations of packages -/

/-- The names of the directories on the way from the root to a place. -/
def location : SourceTree → Place → Location
  | _, [] => []
  | t, k :: rest =>
    match t.children[k]? with
    | some c => c.source.directoryName :: c.location rest
    | none => []

theorem location_cons {k : Nat} {c : SourceTree} (hc : t.children[k]? = some c) (rest : Place) :
    t.location (k :: rest) = c.source.directoryName :: c.location rest := by
  rw [location, hc]

theorem location_concat {p : Place} {up c : SourceTree} {k : Nat} (hup : t.at? p = some up)
    (hc : up.children[k]? = some c) :
    t.location (p ++ [k]) = t.location p ++ [c.source.directoryName] := by
  induction p generalizing t with
  | nil =>
      obtain rfl := Option.some.inj hup
      rw [List.nil_append, location_cons hc]
      rfl
  | cons i rest ih =>
      obtain ⟨d, hd, hrest⟩ := at?_cons_eq_some_iff.mp hup
      rw [List.cons_append, location_cons hd, location_cons hd, ih hrest, List.cons_append]

/-- The package at a place is the directory at the location of the place. -/
theorem exists_directory_of_at? (h : readDirectory fs name path entries = .ok t)
    (hdistinct : (FileNode.directory entries).DistinctNames) {p : Place}
    (hp : t.at? p = some sub) :
    (∃ below, (FileNode.directory entries).at? (t.location p) = some (.directory below)) ∧
      sub.source.directory = some (Path.joinAll path (t.location p)) := by
  induction p generalizing t name path entries with
  | nil =>
      obtain rfl := Option.some.inj hp
      exact ⟨⟨entries, FileNode.at?_nil _⟩, (source_of_readDirectory h).2⟩
  | cons k rest ih =>
      obtain ⟨c, hc, hrest⟩ := at?_cons_eq_some_iff.mp hp
      obtain ⟨below, hmem, hchild⟩ := exists_subdirectory_of_child h hc
      obtain ⟨⟨found, hfound⟩, hdirectory⟩ := ih hchild (hdistinct.of_mem hmem) hrest
      rw [location_cons hc]
      refine ⟨⟨found, ?_⟩, hdirectory⟩
      exact FileNode.at?_cons_eq_some_iff.mpr
        ⟨entries, _, rfl, hdistinct.lookup_iff.mpr hmem, hfound⟩

/-- Every real directory is the package at some place. -/
theorem exists_place_of_directory (h : readDirectory fs name path entries = .ok t)
    {location : Location} {found : List (String × FileNode)}
    (hat : (FileNode.directory entries).at? location = some (.directory found)) :
    ∃ p sub, t.at? p = some sub ∧ t.location p = location := by
  induction location generalizing t name path entries with
  | nil => exact ⟨[], t, rfl, rfl⟩
  | cons first rest ih =>
      obtain ⟨_, node, hentries, hlookup, hrest⟩ := FileNode.at?_cons_eq_some_iff.mp hat
      obtain rfl := FileNode.directory.inj hentries
      -- what leads on to a directory is a directory itself
      obtain ⟨below, rfl⟩ : ∃ below, node = FileNode.directory below := by
        cases rest with
        | nil =>
            rw [FileNode.at?_nil] at hrest
            exact ⟨found, Option.some.inj hrest⟩
        | cons second more =>
            obtain ⟨below, -, hnode, -, -⟩ := FileNode.at?_cons_eq_some_iff.mp hrest
            exact ⟨below, hnode⟩
      obtain ⟨k, c, hc, hname, hchild⟩ :=
        exists_child_of_subdirectory h (OrderedMap.mem_of_lookup hlookup)
      obtain ⟨p, sub, hp, hlocation⟩ := ih hchild hrest
      refine ⟨k :: p, sub, at?_cons_eq_some_iff.mpr ⟨c, hc, hp⟩, ?_⟩
      rw [location_cons hc, hname, hlocation]

/-- Locations have the order of places. -/
theorem location_before (h : readDirectory fs name path entries = .ok t)
    (hdistinct : (FileNode.directory entries).DistinctNames) {p q : Place} {sub' : SourceTree}
    (hp : t.at? p = some sub) (hq : t.at? q = some sub') (hlt : p < q) :
    (t.location p).Before (t.location q) := by
  induction p generalizing t name path entries q with
  | nil =>
      cases q with
      | nil => exact absurd hlt (List.lt_irrefl [])
      | cons k rest =>
          obtain ⟨c, hc, -⟩ := at?_cons_eq_some_iff.mp hq
          rw [location_cons hc]
          exact Location.nil_before_cons _ _
  | cons i rest ih =>
      cases q with
      | nil => exact absurd hlt (List.not_lt_nil _)
      | cons j rest' =>
          obtain ⟨c, hc, hrest⟩ := at?_cons_eq_some_iff.mp hp
          obtain ⟨c', hc', hrest'⟩ := at?_cons_eq_some_iff.mp hq
          rw [location_cons hc, location_cons hc']
          -- children stand in the order of their names, so the first difference decides for both
          rcases List.cons_lt_cons_iff.mp hlt with hij | ⟨rfl, hlt'⟩
          · refine Location.before_of_lt ?_ _ _
            obtain ⟨hi, rfl⟩ := List.getElem?_eq_some_iff.mp hc
            obtain ⟨hj, rfl⟩ := List.getElem?_eq_some_iff.mp hc'
            have hpairwise := List.pairwise_map.mp (children_pairwise h hdistinct)
            exact List.pairwise_iff_getElem.mp hpairwise i j hi hj hij
          · obtain rfl := Option.some.inj (hc.symm.trans hc')
            obtain ⟨below, hmem, hchild⟩ := exists_subdirectory_of_child h hc
            exact Location.cons_before_cons_iff.mpr
              (ih hchild (hdistinct.of_mem hmem) hrest hrest' hlt')

/-- The locations of all packages, in the order of the packages. -/
def locations (t : SourceTree) : List Location := t.places.map t.location

theorem HasPackage.locations_getElem? {i : Nat} {p : Place} (h : t.HasPackage i p sub) :
    t.locations[i]? = some (t.location p) := by
  rw [locations, List.getElem?_map, h.place, Option.map_some]

theorem mem_locations_iff (h : readDirectory fs name path entries = .ok t)
    (hdistinct : (FileNode.directory entries).DistinctNames) {location : Location} :
    location ∈ t.locations ↔
      ∃ below, (FileNode.directory entries).at? location = some (.directory below) := by
  rw [locations, List.mem_map]
  constructor
  · rintro ⟨p, hp, rfl⟩
    obtain ⟨sub, hsub⟩ := mem_places_iff.mp hp
    exact (exists_directory_of_at? h hdistinct hsub).1
  · rintro ⟨below, hat⟩
    obtain ⟨p, sub, hsub, hlocation⟩ := exists_place_of_directory h hat
    exact ⟨p, mem_places_iff.mpr ⟨sub, hsub⟩, hlocation⟩

theorem locations_pairwise (h : readDirectory fs name path entries = .ok t)
    (hdistinct : (FileNode.directory entries).DistinctNames) :
    t.locations.Pairwise Location.Before := by
  rw [locations, List.pairwise_map]
  refine (pairwise_lt_places t).imp_of_mem fun hp hq hlt => ?_
  obtain ⟨sub, hsub⟩ := mem_places_iff.mp hp
  obtain ⟨sub', hsub'⟩ := mem_places_iff.mp hq
  exact location_before h hdistinct hsub hsub' hlt

theorem length_locations (t : SourceTree) : t.locations.length = t.size := List.length_map _

end SourceTree

/-! ## Loaded packages -/

section Built

variable {registry : Registry} {system : SystemLink PackageTree} {stamp : Nat}
  {source : SourceTree} {t : PackageTree} (htree : source.toTree registry system stamp = .ok t)

include htree

section Read

variable {fs : FileSystem} {name path : String} {entries : List (String × FileNode)}
  (hread : SourceTree.readDirectory fs name path entries = .ok source)
  (hdistinct : (FileNode.directory entries).DistinctNames)

include hread hdistinct

/-- A package has the directory at its location. -/
theorem Package.exists_location {p : Package} (hp : p.tree = t) :
    ∃ location, source.locations[p.id.val]? = some location ∧
      p.directory? = some (Path.joinAll path location) := by
  obtain ⟨place, sub, hplace, hnode⟩ :=
    SourceTree.exists_hasNode_of_node htree (p.nodes_getElem? hp)
  refine ⟨_, hplace.locations_getElem?, ?_⟩
  rw [Package.directory?, hnode.builds.directory]
  exact (SourceTree.exists_directory_of_at? hread hdistinct hplace.tree).2

/-- The packages of a tree have the directories at all locations, in order. -/
theorem PackageTree.map_directory?_packages :
    t.packages.map Package.directory? =
      source.locations.map fun location => some (Path.joinAll path location) := by
  have hlength : t.packages.length = source.locations.length := by
    rw [SourceTree.length_locations, ← (SourceTree.toTree_eq_ok_iff.mp htree).2.2.1]
    simp [PackageTree.packages]
  refine List.ext_getElem (by simpa using hlength) fun i hi hi' => ?_
  rw [List.length_map] at hi hi'
  obtain ⟨hid, htreeEq⟩ : t.packages[i].id.val = i ∧ t.packages[i].tree = t := by
    have hget := t.packages_getElem? i
    rw [List.getElem?_eq_getElem hi, eq_comm, PackageTree.package?_eq_some_iff] at hget
    exact hget.symm
  obtain ⟨location, hlocation, hdirectory⟩ := Package.exists_location htree hread hdistinct htreeEq
  rw [hid, List.getElem?_eq_getElem hi', Option.some.injEq] at hlocation
  rw [List.getElem_map, List.getElem_map, hdirectory, hlocation]

end Read

/-- The directory of a package is in that of its parent. -/
theorem Package.exists_name_of_parent? {p q : Package} (hp : p.tree = t)
    (hparent : p.parent? = some q) :
    ∃ above name, source.locations[q.id.val]? = some above ∧
      source.locations[p.id.val]? = some (above ++ [name]) := by
  obtain ⟨place, sub, hplace, -⟩ := SourceTree.exists_hasNode_of_node htree (p.nodes_getElem? hp)
  obtain ⟨above, k, up, rfl, habove⟩ := exists_place_of_parent? htree hp hparent hplace
  have hchild : up.children[k]? = some sub := by
    rw [← SourceTree.at?_concat habove.tree k]
    exact hplace.tree
  refine ⟨_, sub.source.directoryName, habove.locations_getElem?, ?_⟩
  rw [hplace.locations_getElem?, SourceTree.location_concat habove.tree hchild]

end Built

namespace Loader

/-- Directories are opened by their own paths, one from the other, and that comes to an end. If a
load succeeds, the packages of the tree are, in the order of their numbers, the directories at all
locations below the one that was loaded, which stand in the order of the dictionary and are reached
through no link. The root has the path that was given, and any other package the directory of its
parent extended by one name. -/
theorem packages_are_directories {fs : FileSystem} (hfs : fs.WellNamed) :
    (WellFounded fun sub path => fs.Opens path sub) ∧
    (∀ path entries name below, fs.entries path = .ok entries →
      (name, FileNode.directory below) ∈ entries →
      SourceTree.readNode fs name (Path.join path name) (.directory below) =
        (SourceTree.read fs (Path.join path name)).map .subpackage) ∧
    ∀ (l : Loader) (stamp : Nat) (path : String) (t : PackageTree),
      l.load fs stamp path = .ok t ∨ l.loadSystem fs stamp path = .ok t →
      ∃ (start : List (String × FileNode)) (locations : List Location),
        fs.entries path = .ok start ∧
        (∀ location, location ∈ locations ↔
          ∃ entries, (FileNode.directory start).at? location = some (.directory entries)) ∧
        locations.Pairwise Location.Before ∧
        t.packages.map Package.directory? =
          locations.map (fun location => some (Path.joinAll path location)) ∧
        t.root.directory? = some path ∧
        ∀ p ∈ t.packages, p ≠ t.root → ∃ q above name, p.parent? = some q ∧
          locations[q.id.val]? = some above ∧ locations[p.id.val]? = some (above ++ [name]) ∧
          p.directory? = q.directory?.map (Path.join · name) := by
  refine ⟨FileSystem.wellFounded_opens hfs, ?_, ?_⟩
  · intro path entries name below hentries hmem
    exact SourceTree.readNode_directory_eq_read hfs hentries hmem
  · intro l stamp path t hload
    obtain ⟨system, source, hread, htree⟩ := exists_read_of_load hload
    obtain ⟨name, start, -, hstart, hread⟩ := SourceTree.read_eq_ok_iff.mp hread
    have hdistinct := hfs.distinct_of_entries hstart
    have harranged : t.Arranged := PackageTree.arranged_of_toTree htree
    refine ⟨start, source.locations, hstart, fun _ => SourceTree.mem_locations_iff hread hdistinct,
      SourceTree.locations_pairwise hread hdistinct,
      PackageTree.map_directory?_packages htree hread hdistinct, ?_, ?_⟩
    · obtain ⟨location, hlocation, hdirectory⟩ :=
        Package.exists_location htree hread hdistinct (p := t.root) rfl
      have hroot := (SourceTree.hasPackage_root source).locations_getElem?
      obtain rfl : location = [] := Option.some.inj (hlocation.symm.trans hroot)
      exact hdirectory
    · intro p hp hne
      rw [PackageTree.mem_packages_iff] at hp
      obtain ⟨q, hparent⟩ := harranged.exists_parent?_of_ne_root hp hne
      obtain ⟨above, name, habove, hlocation⟩ := Package.exists_name_of_parent? htree hp hparent
      have hq : q.tree = t := (Package.parent?_eq_some_iff.mp hparent).1.trans hp
      -- each number has one location, that of the directory of its package
      obtain ⟨_, hp', hpdir⟩ := Package.exists_location htree hread hdistinct hp
      obtain ⟨_, hq', hqdir⟩ := Package.exists_location htree hread hdistinct hq
      obtain rfl := Option.some.inj (hlocation.symm.trans hp')
      obtain rfl := Option.some.inj (habove.symm.trans hq')
      refine ⟨q, above, name, hparent, habove, hlocation, ?_⟩
      rw [hpdir, hqdir, Option.map_some, Path.joinAll_concat]

/-- A directory whose name is that of an entity file, a link that leads back up and one that leads
nowhere. -/
def harbourEntries : List (String × FileNode) :=
  [("adrift", .link "nowhere"), ("hull.json", .directory []), ("loop", .link "../harbour")]

/-- A directory `harbour` with links in it, and a link to the directory. -/
def harbourFiles : FileSystem where
  root := .directory [("gate", .link "harbour"), ("harbour", .directory harbourEntries)]
  workingDirectory := []

/-- Loaded through the link, the directory in it is a package, and what the links in it lead to is
none. -/
theorem packages_are_directories_harbour :
    harbourFiles.WellNamed ∧ ∃ (t : PackageTree) (locations : List Location),
      standard.load harbourFiles 1 "gate" = .ok t ∧
      t.packages.map Package.directory? =
        locations.map (fun location => some (Path.joinAll "gate" location)) ∧
      ["hull.json"] ∈ locations ∧ ["loop"] ∉ locations ∧ ["loop", "hull.json"] ∉ locations := by
  have hfs : harbourFiles.WellNamed := by decide +kernel
  have hname : harbourFiles.nameOf "gate" = .ok "gate" := by rfl
  have hentries : harbourFiles.entries "gate" = .ok harbourEntries := by rfl
  have hload : (standard.load harbourFiles 1 "gate").toOption.isSome = true := by
    rw [load, loadWith, SourceTree.read_of_sorted hname hentries (by decide)]
    decide +kernel
  obtain ⟨t, hload⟩ : ∃ t, standard.load harbourFiles 1 "gate" = .ok t := by
    cases hresult : standard.load harbourFiles 1 "gate" with
    | error error => exact absurd hload (by simp [hresult, Except.toOption])
    | ok t => exact ⟨t, rfl⟩
  obtain ⟨start, locations, hstart, hmem, -, hall, -⟩ :=
    (packages_are_directories hfs).2.2 standard 1 "gate" t (.inl hload)
  obtain rfl := Except.ok.inj (hstart.symm.trans hentries)
  have hlink : (FileNode.directory harbourEntries).at? ["loop"] = some (.link "../harbour") := by
    rfl
  have hnone : (FileNode.directory harbourEntries).at? ["loop", "hull.json"] = none := by rfl
  refine ⟨hfs, t, locations, hload, hall, (hmem _).mpr ⟨[], by rfl⟩, ?_, ?_⟩
  · rw [hmem, hlink]
    rintro ⟨entries, h⟩
    exact nomatch h
  · rw [hmem, hnone]
    rintro ⟨entries, h⟩
    exact nomatch h

end Loader

end BlueprintPackages
