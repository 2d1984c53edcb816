import BlueprintPackages.Proofs.Files.Editing
import BlueprintPackages.Proofs.Source.OwnFiles
import BlueprintPackages.Proofs.Source.Retyping

/-!
# Reading after a file was edited

Whatever a package is read from stands in files: the content of a definition is what the file at its
context spells, and so it is with a version table (`fromFiles_of_read`).

Where the type in one file is replaced, every path that leads to this file leads to the retyped text
and every other path to the text that it led to. Names and directories are the same. So what is read
is what was read, with everything retyped that is from this file (`read_replaceFile`), in whatever
packages, be it by links.
-/

namespace BlueprintPackages

/-! ## Packages come from files -/

/-- What a package was read from still stands in the files. -/
structure PackageSource.FromFiles (fs : FileSystem) (s : PackageSource) : Prop where
  definitions : ∀ d ∈ s.definitions, ∃ text, fs.readText d.context = .ok text ∧
    Json.ofText text = .ok (.object d.content)
  versions : ∀ table, s.versions = some table → ∃ text, fs.readText table.context = .ok text ∧
    Json.membersOfText text = .ok table.entries

/-- All packages below a directory that was read are from files. -/
theorem SourceTree.fromFiles_of_read {fs : FileSystem} (hfs : fs.WellNamed) {path : String}
    {t sub : SourceTree} (hread : read fs path = .ok t) {p : Place} (hp : t.at? p = some sub) :
    sub.source.FromFiles fs := by
  obtain ⟨directory, entries, hdirectory⟩ := exists_ofDirectory_of_read hfs hread hp
  constructor
  · intro d hd
    obtain ⟨name, text, content, hspells, hcontent, rfl⟩ := (hdirectory.definitions d).mp hd
    exact ⟨text, hspells.text, hcontent⟩
  · intro table htable
    obtain ⟨text, hspells, hparse⟩ := (hdirectory.versions table).mp htable
    obtain ⟨entries, hentries, rfl⟩ := Fallible.map_eq_ok_iff.mp hparse
    exact ⟨text, hspells.text, hentries⟩

/-! ## One file retyped -/

/-- A path leads to the file at a location. -/
def FileSystem.leadsTo (fs : FileSystem) (file : Location) (path : String) : Bool :=
  decide (fs.locate path = .ok file)

/-- In the file at a location the text under the last key `type` of an object is replaced. -/
structure FileSystem.RetypesFile (fs : FileSystem) (file : Location) (bytes : ByteArray)
    (old type type' : String) : Prop where
  exists_bytes : ∃ bytes, fs.root.at? file = some (.file bytes) ∧
    FileSystem.textOf (.file bytes) = .ok old
  exists_text : ∃ new, FileSystem.textOf (.file bytes) = .ok new ∧ RetypedText type type' old new

/-- What was contributed, with everything retyped that is from a changed file. -/
def Contribution.retype (changed : String → Bool) (type : String) : Contribution → Contribution
  | metadata value => metadata value
  | versions value => versions (value.retypeIf changed type)
  | definition value => definition (value.retypeIf changed type)
  | subpackage value => subpackage (value.retype changed type)
  | nothing => nothing

namespace SourceTree

variable {fs : FileSystem} {file : Location} {bytes : ByteArray} {name path old type type' : String}
  {entries : List (String × FileNode)} {changed : String → Bool}

/-! ### Files -/

theorem contribution_retype_of_unchanged (role : FileRole) (text : String)
    (hpath : ¬ changed path) :
    role.contribution path text =
      (role.contribution path text).map (Contribution.retype changed type) := by
  cases role with
  | metadata =>
      rw [FileRole.contribution]
      cases Metadata.ofText text <;> rfl
  | versions =>
      rw [FileRole.contribution, VersionTable.ofText]
      cases Json.membersOfText text with
      | error fault => rfl
      | ok members =>
          simp only [Except.map, ReadError.ofFault, Contribution.retype, VersionTable.retypeIf,
            if_neg hpath]
  | definition =>
      rw [FileRole.contribution]
      cases Json.ofText text with
      | error fault => rfl
      | ok value =>
          cases value with
          | object content =>
              simp only [bind, Except.bind, Except.map, ReadError.ofFault, ReadError.ofField,
                Definition.ofJson, pure, Except.pure, Contribution.retype, Definition.retypeIf,
                if_neg hpath]
          | null | boolean | number | string | array => rfl

theorem contribution_retype (role : FileRole) {new : String} (hpath : changed path)
    (h : RetypedText type type' old new) :
    role.contribution path new =
      (role.contribution path old).map (Contribution.retype changed type') := by
  cases role with
  | metadata =>
      rw [FileRole.contribution, FileRole.contribution, h.metadata_eq]
      cases Metadata.ofText old <;> rfl
  | versions =>
      rw [FileRole.contribution, FileRole.contribution, VersionTable.ofText, VersionTable.ofText,
        h.membersOfText_eq]
      cases Json.membersOfText old with
      | error fault => rfl
      | ok members =>
          simp only [Except.map, ReadError.ofFault, Contribution.retype, VersionTable.retypeIf,
            if_pos hpath]
  | definition =>
      rw [FileRole.contribution, FileRole.contribution]
      obtain ⟨fault, hold, hnew⟩ | ⟨content, hold, -, hnew⟩ := h.ofText_eq
      · rw [hold, hnew]
        rfl
      · rw [hold, hnew]
        simp only [bind, Except.bind, Except.map, ReadError.ofFault, ReadError.ofField,
          Definition.ofJson, pure, Except.pure, Contribution.retype, Definition.retypeIf,
          if_pos hpath, Definition.retype]

theorem ofContributions_retype (name path : String) (contributions : List Contribution) :
    ofContributions name path (contributions.map (Contribution.retype changed type)) =
      (ofContributions name path contributions).retype changed type := by
  have hmetadata : Contribution.metadata? ∘ Contribution.retype changed type =
      Contribution.metadata? := funext fun c => by cases c <;> rfl
  have hversions : Contribution.versions? ∘ Contribution.retype changed type =
      fun c => c.versions?.map (VersionTable.retypeIf changed type) :=
    funext fun c => by cases c <;> rfl
  have hdefinition : Contribution.definition? ∘ Contribution.retype changed type =
      fun c => c.definition?.map (Definition.retypeIf changed type) :=
    funext fun c => by cases c <;> rfl
  have hsubpackage : Contribution.subpackage? ∘ Contribution.retype changed type =
      fun c => c.subpackage?.map (retype changed type) := funext fun c => by cases c <;> rfl
  rw [ofContributions, ofContributions, retype, retypeAll_eq_map, PackageSource.retype]
  simp only [List.findSome?_map, List.filterMap_map, hmetadata, hversions, hdefinition,
    hsubpackage, List.map_filterMap, List.map_findSome?]
  rfl

variable (hfs : fs.WellNamed) (h : fs.RetypesFile file bytes old type type')

include h

theorem readFile_replaceFile (name path : String) :
    readFile name path ((fs.replaceFile file bytes).readText path) =
      (readFile name path (fs.readText path)).map
        (Contribution.retype (fs.leadsTo file) type') := by
  rw [readFile, readFile]
  cases FileRole.ofName? name with
  | none => rfl
  | some role =>
      -- by a link many paths lead to the file, and what is read from each of them is retyped
      by_cases hpath : fs.locate path = .ok file
      · obtain ⟨_, hat, hold⟩ := h.exists_bytes
        obtain ⟨new, hnew, hretyped⟩ := h.exists_text
        have hchanged : fs.leadsTo file path = true := decide_eq_true hpath
        rw [FileSystem.readText_of_locate hat hpath,
          FileSystem.readText_replaceFile_of_locate hat hpath, hold, hnew]
        exact contribution_retype role hchanged hretyped
      · have hunchanged : ¬ fs.leadsTo file path = true := fun hleads =>
          hpath (of_decide_eq_true hleads)
        rw [FileSystem.readText_replaceFile_of_ne hpath]
        cases fs.readText path with
        | error error => rfl
        | ok text => exact contribution_retype_of_unchanged role text hunchanged

/-! ### Directories -/

include hfs

theorem readEntry_replaceFile_of_not_directory {location : Location}
    (hlist : fs.entries path = .ok entries)
    (hlist' : (fs.replaceFile file bytes).entries path =
      .ok (FileNode.editEntries (FileSystem.replacing file bytes) location entries))
    {node : FileNode} (hmem : (name, node) ∈ entries) (hnode : ∀ below, node ≠ .directory below) :
    readEntry (fs.replaceFile file bytes) path
        (name, node.edit (FileSystem.replacing file bytes) (location ++ [name])) =
      (readEntry fs path (name, node)).map (Contribution.retype (fs.leadsTo file) type') := by
  have hname : IsEntryName name := hfs.isEntryName hlist hmem
  have hlookup : entries.lookup name = some node := (hfs.lookup_iff hlist).mpr hmem
  have hlookup' : (FileNode.editEntries (FileSystem.replacing file bytes) location entries).lookup
      name = some (node.edit (FileSystem.replacing file bytes) (location ++ [name])) := by
    rw [FileNode.lookup_editEntries, hlookup, Option.map_some]
  have hnode' : ∀ below,
      node.edit (FileSystem.replacing file bytes) (location ++ [name]) ≠ .directory below := by
    intro below
    cases node with
    | file _ => exact fun h => nomatch h
    | link _ => exact fun h => nomatch h
    | directory below => exact absurd rfl (hnode below)
  have hdirectory : (fs.replaceFile file bytes).isDirectory (Path.join path name) =
      fs.isDirectory (Path.join path name) := (FileSystem.resembles_edit _ fs).isDirectory_eq _
  rw [readEntry_of_not_directory hlist hname hlookup hnode,
    readEntry_of_not_directory hlist' hname hlookup' hnode', hdirectory,
    readFile_replaceFile h]
  split <;> rfl

/-- A directory and all that is below it is read as before, retyped. -/
theorem readDirectory_replaceFile {node : FileNode} {location : Location}
    (hnode : node = .directory entries) (hlist : fs.entries path = .ok entries)
    (hlist' : (fs.replaceFile file bytes).entries path =
      .ok (FileNode.editEntries (FileSystem.replacing file bytes) location entries))
    (own : String) :
    readDirectory (fs.replaceFile file bytes) own path
        (FileNode.editEntries (FileSystem.replacing file bytes) location entries) =
      (readDirectory fs own path entries).map (retype (fs.leadsTo file) type') := by
  induction node using FileNode.induction generalizing path location entries own with
  | file _ => exact nomatch hnode
  | link _ => exact nomatch hnode
  | directory entries' ih =>
      obtain rfl := FileNode.directory.inj hnode
      -- a real directory is read by the induction, anything else as what its path leads to
      have hentry : ∀ e ∈ sortByName entries',
          readEntry (fs.replaceFile file bytes) path
              (e.1, e.2.edit (FileSystem.replacing file bytes) (location ++ [e.1])) =
            (readEntry fs path e).map (Contribution.retype (fs.leadsTo file) type') := by
        rintro ⟨name, node⟩ he
        rw [mem_sortByName_iff] at he
        by_cases hdirectory : ∃ below, node = .directory below
        · obtain ⟨below, rfl⟩ := hdirectory
          have he' : (name, FileNode.directory (FileNode.editEntries
              (FileSystem.replacing file bytes) (location ++ [name]) below)) ∈
                FileNode.editEntries (FileSystem.replacing file bytes) location entries' := by
            rw [FileNode.editEntries_eq_map, List.mem_map]
            exact ⟨_, he, rfl⟩
          have hbelow := hfs.entries_join hlist he
          have hbelow' := (hfs.edit _).entries_join hlist' he'
          rw [FileNode.edit, readEntry_directory, readEntry_directory]
          cases hcheck : FileSystem.checkPath (Path.join path name) with
          | error error => rfl
          | ok _ =>
              rw [hcheck] at hbelow hbelow'
              simp only [ReadError.ofAccess, bind, Except.bind,
                ih _ he rfl hbelow hbelow' name]
              cases readDirectory fs name (Path.join path name) below <;> rfl
        · exact readEntry_replaceFile_of_not_directory hfs h hlist hlist' he fun below hbelow =>
            hdirectory ⟨below, hbelow⟩
      have hsort : sortByName
          (FileNode.editEntries (FileSystem.replacing file bytes) location entries') =
            (sortByName entries').map fun e =>
              (e.1, e.2.edit (FileSystem.replacing file bytes) (location ++ [e.1])) := by
        rw [FileNode.editEntries_eq_map, sortByName_map]
      rw [readDirectory_eq_mapM, readDirectory_eq_mapM, hsort,
        Fallible.mapM_map_eq_of_forall hentry]
      cases (sortByName entries').mapM (readEntry fs path) with
      | error error => rfl
      | ok contributions => exact congrArg Except.ok (ofContributions_retype own path contributions)

/-- What is read is what was read, with everything retyped that is from the file. -/
theorem read_replaceFile (path : String) :
    read (fs.replaceFile file bytes) path =
      (read fs path).map (retype (fs.leadsTo file) type') := by
  have hresembles : fs.Resembles _ (fs.replaceFile file bytes) :=
    FileSystem.resembles_edit (FileSystem.replacing file bytes) fs
  rw [read, read, hresembles.nameOf_eq]
  cases fs.nameOf path with
  | error error => rfl
  | ok own =>
      obtain ⟨error, hlist, hlist'⟩ | ⟨location, entries, entries', -, hchange, hlist, hlist'⟩ :=
        hresembles.entries_eq path
      · rw [hlist, hlist']
        rfl
      · obtain rfl := FileNode.directory.inj hchange
        rw [hlist, hlist']
        exact readDirectory_replaceFile hfs h rfl hlist hlist' own

end SourceTree

end BlueprintPackages
