import BlueprintPackages.Proofs.Files.Walking

/-!
# Opening directory after directory

Whoever opens a directory by its path may go on with the real directories in it, each by the path
that is extended by its name. Such a path leads to the very directory that was listed
(`WellNamed.entries_join`), so every directory that is opened is one of the tree of files, and as
that is finite, this comes to an end whatever links there are (`wellFounded_opens`): no link is
opened on the way.
-/

namespace BlueprintPackages

/-- A path extended by the names of a location. -/
def Path.joinAll (path : String) (location : Location) : String := location.foldl Path.join path

theorem Path.joinAll_concat (path : String) (location : Location) (name : String) :
    joinAll path (location ++ [name]) = join (joinAll path location) name :=
  List.foldl_concat ..

/-! ## Opening directories -/

/-- Who opens the directory at a path opens the real directories in it, each at its own path. -/
def FileSystem.Opens (fs : FileSystem) (path sub : String) : Prop :=
  ∃ entries name below, fs.entries path = .ok entries ∧
    (name, FileNode.directory below) ∈ entries ∧ sub = Path.join path name

namespace FileSystem

variable {fs : FileSystem}

/-- Directories are opened where a path leads, so what is listed is part of the tree of files. -/
theorem exists_at?_of_entries {path : String} {entries : List (String × FileNode)}
    (h : fs.entries path = .ok entries) :
    ∃ location, fs.root.at? location = some (.directory entries) := by
  obtain ⟨location, -, hat⟩ := node_eq_ok_iff.mp (entries_eq_ok_iff.mp h)
  exact ⟨location, hat⟩

theorem WellNamed.distinct_of_entries (hfs : fs.WellNamed) {path : String}
    {entries : List (String × FileNode)} (h : fs.entries path = .ok entries) :
    (FileNode.directory entries).DistinctNames := by
  obtain ⟨location, hat⟩ := exists_at?_of_entries h
  exact hfs.distinct.at? hat

theorem WellNamed.proper_of_entries (hfs : fs.WellNamed) {path : String}
    {entries : List (String × FileNode)} (h : fs.entries path = .ok entries) :
    (FileNode.directory entries).ProperNames := by
  obtain ⟨location, hat⟩ := exists_at?_of_entries h
  exact hfs.proper.at? hat

section Names

variable (hfs : fs.WellNamed) {path : String} {entries : List (String × FileNode)}
  (h : fs.entries path = .ok entries)

include hfs h

theorem WellNamed.isEntryName {e : String × FileNode} (he : e ∈ entries) : IsEntryName e.1 :=
  (hfs.proper_of_entries h).entries_good e he

theorem WellNamed.lookup_iff {name : String} {node : FileNode} :
    entries.lookup name = some node ↔ (name, node) ∈ entries :=
  (hfs.distinct_of_entries h).lookup_iff

theorem WellNamed.nodup_names : (entries.map Prod.fst).Nodup :=
  (hfs.distinct_of_entries h).entries_good

end Names

/-- The directory that a real directory in another opens as is that directory. -/
theorem WellNamed.entries_join (hfs : fs.WellNamed) {path name : String}
    {entries below : List (String × FileNode)} (h : fs.entries path = .ok entries)
    (hmem : (name, FileNode.directory below) ∈ entries) :
    fs.entries (Path.join path name) = (checkPath (Path.join path name)).map fun _ => below :=
  FileSystem.entries_join h (hfs.isEntryName h hmem) ((hfs.lookup_iff h).mpr hmem)

theorem acc_opens (hfs : fs.WellNamed) {node : FileNode} {path : String}
    {entries : List (String × FileNode)} (hnode : node = .directory entries)
    (h : fs.entries path = .ok entries) : Acc (fun sub path => fs.Opens path sub) path := by
  induction node using FileNode.induction generalizing path entries with
  | file bytes => exact nomatch hnode
  | link target => exact nomatch hnode
  | directory entries' ih =>
      obtain rfl := FileNode.directory.inj hnode
      refine Acc.intro path ?_
      rintro _ ⟨listed, name, below, hlisted, hmem, rfl⟩
      obtain rfl := Except.ok.inj (hlisted.symm.trans h)
      have hbelow := hfs.entries_join h hmem
      -- the path may have become too long, and then nothing is opened from it
      cases hcheck : checkPath (Path.join path name) with
      | error error =>
          refine Acc.intro _ ?_
          rintro _ ⟨listed, _, _, hlisted, -, -⟩
          rw [hbelow, hcheck] at hlisted
          exact nomatch hlisted
      | ok _ =>
          rw [hcheck] at hbelow
          exact ih _ hmem rfl hbelow

/-- No directory is opened from within itself, over however many others, and no way of opening one
from the other goes on for ever. -/
theorem wellFounded_opens (hfs : fs.WellNamed) :
    WellFounded fun sub path => fs.Opens path sub := by
  refine ⟨fun path => ?_⟩
  cases h : fs.entries path with
  | ok entries => exact acc_opens hfs rfl h
  | error error =>
      refine Acc.intro path ?_
      rintro _ ⟨entries, _, _, hentries, -, -⟩
      exact nomatch h.symm.trans hentries

end FileSystem

end BlueprintPackages
