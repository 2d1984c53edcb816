import BlueprintPackages.Proofs.Source.Directories
import BlueprintPackages.Proofs.Source.Faults

/-!
# What a package has from its own files

The source of a package that was read is what the files of its directory spell, and of that
directory alone (`PackageSource.OfDirectory`): its metadata is that of the file `package.json`, its
version table that of the file `__versions__.json`, and its definitions are those of all other files
with the extension `json`. Files are read in the order of their names, so one of them may be read
before the metadata or after, but the whole directory is read before anything is made of it.

That holds of every package below the directory that was read (`exists_ofDirectory_of_read`).
-/

namespace BlueprintPackages

/-- In the directory at a path there is a file of the given name for the given use, and it holds the
text. -/
structure FileSystem.Spells (fs : FileSystem) (path : String) (entries : List (String × FileNode))
    (name : String) (role : FileRole) (text : String) : Prop where
  file : fs.PackageFile path entries [name] role
  text : fs.readText (Path.join path name) = .ok text

/-- The source of a package is what the files of the directory at a path spell, each for itself and
all of them. -/
structure PackageSource.OfDirectory (fs : FileSystem) (path : String)
    (entries : List (String × FileNode)) (s : PackageSource) : Prop where
  listed : fs.entries path = .ok entries
  directory : s.directory = some path
  name : fs.nameOf path = .ok s.directoryName
  metadata : ∀ m, s.metadata = some m ↔
    ∃ text, fs.Spells path entries "package.json" .metadata text ∧ Metadata.ofText text = .ok m
  versions : ∀ table, s.versions = some table ↔
    ∃ text, fs.Spells path entries "__versions__.json" .versions text ∧
      VersionTable.ofText (Path.join path "__versions__.json") text = .ok table
  definitions : ∀ d, d ∈ s.definitions ↔
    ∃ name text content, fs.Spells path entries name .definition text ∧
      Json.ofText text = .ok (.object content) ∧ d = ⟨Path.join path name, content⟩
  complete : ∀ name, fs.PackageFile path entries [name] .definition →
    ∃ text content, fs.Spells path entries name .definition text ∧
      Json.ofText text = .ok (.object content)

/-! ## Files -/

/-- What a file is for that makes such a contribution. -/
def Contribution.role? : Contribution → Option FileRole
  | metadata _ => some .metadata
  | versions _ => some .versions
  | definition _ => some .definition
  | subpackage _ => none
  | nothing => none

namespace FileRole

variable {name path text : String} {c : Contribution}

theorem eq_of_ofName?_metadata (h : ofName? name = some metadata) : name = "package.json" := by
  unfold ofName? at h
  split at h
  · assumption
  · split at h
    · exact nomatch h
    · split at h <;> exact nomatch h

theorem eq_of_ofName?_versions (h : ofName? name = some versions) : name = "__versions__.json" := by
  unfold ofName? at h
  split at h
  · exact nomatch h
  · split at h
    · assumption
    · split at h <;> exact nomatch h

theorem contribution_metadata_iff : metadata.contribution path text = .ok c ↔
    ∃ m, Metadata.ofText text = .ok m ∧ .metadata m = c := by
  simp only [contribution, Fallible.map_eq_ok_iff, ReadError.ofFault_eq_ok_iff]

theorem contribution_versions_iff : versions.contribution path text = .ok c ↔
    ∃ table, VersionTable.ofText path text = .ok table ∧ .versions table = c := by
  simp only [contribution, Fallible.map_eq_ok_iff, ReadError.ofFault_eq_ok_iff]

theorem contribution_definition_iff : definition.contribution path text = .ok c ↔
    ∃ content, Json.ofText text = .ok (.object content) ∧ .definition ⟨path, content⟩ = c := by
  simp only [contribution, Fallible.bind_eq_ok_iff, ReadError.ofFault_eq_ok_iff]
  constructor
  · rintro ⟨value, hvalue, d, hd, hc⟩
    cases value with
    | object content =>
        cases hd
        cases hc
        exact ⟨content, hvalue, rfl⟩
    | null | boolean | number | string | array => cases hd
  · rintro ⟨content, hcontent, rfl⟩
    exact ⟨.object content, hcontent, ⟨path, content⟩, rfl, rfl⟩

theorem role?_of_contribution {role : FileRole} (h : role.contribution path text = .ok c) :
    c.role? = some role := by
  cases role with
  | metadata =>
      obtain ⟨m, -, rfl⟩ := contribution_metadata_iff.mp h
      rfl
  | versions =>
      obtain ⟨table, -, rfl⟩ := contribution_versions_iff.mp h
      rfl
  | definition =>
      obtain ⟨content, -, rfl⟩ := contribution_definition_iff.mp h
      rfl

end FileRole

namespace FileSystem

variable {fs : FileSystem} {path name text : String} {entries : List (String × FileNode)}
  {role role' : FileRole}

/-- A file in the directory itself, told by its entry. -/
theorem packageFile_singleton_iff :
    fs.PackageFile path entries [name] role ↔
      ∃ node, entries.lookup name = some node ∧ (∀ below, node ≠ .directory below) ∧
        fs.isDirectory (Path.join path name) = false ∧ FileRole.ofName? name = some role := by
  have hat : (FileNode.directory entries).at? [name] = entries.lookup name := by
    rw [FileNode.at?_directory_cons]
    cases entries.lookup name <;> simp
  constructor
  · intro h
    generalize hlocation : [name] = location at h
    cases h with
    | @mk up last node role hfound hnode hlink hrole =>
        cases up with
        | nil =>
            obtain ⟨rfl, -⟩ := List.cons.inj hlocation
            exact ⟨node, hat ▸ hfound, hnode, hlink, hrole⟩
        | cons first up =>
            have hnil : [] = up ++ [last] := (List.cons.inj hlocation).2
            exact absurd hnil.symm (List.append_ne_nil_of_right_ne_nil _ (List.cons_ne_nil _ _))
  · rintro ⟨node, hlookup, hnode, hlink, hrole⟩
    exact .mk [] name (hat.trans hlookup) hnode hlink hrole

theorem Spells.role_eq (h : fs.Spells path entries name role text) :
    FileRole.ofName? name = some role := by
  obtain ⟨_, -, -, -, hrole⟩ := packageFile_singleton_iff.mp h.file
  exact hrole

end FileSystem

namespace SourceTree

variable {fs : FileSystem} {name path : String} {entries : List (String × FileNode)}
  {t sub : SourceTree} {c : Contribution}

/-- An entry that contributes to the package itself is a file, and contributes what is in it. -/
theorem readEntry_eq_ok_iff (hfs : fs.WellNamed) (hlist : fs.entries path = .ok entries)
    {e : String × FileNode} (he : e ∈ entries) {role : FileRole} (hrole : c.role? = some role) :
    readEntry fs path e = .ok c ↔ ∃ text, fs.Spells path entries e.1 role text ∧
      role.contribution (Path.join path e.1) text = .ok c := by
  obtain ⟨name, node⟩ := e
  have hname : IsEntryName name := hfs.isEntryName hlist he
  have hlookup : entries.lookup name = some node := (hfs.lookup_iff hlist).mpr he
  have hnothing : (.ok .nothing : Except ReadError Contribution) ≠ .ok c := by
    rintro ⟨⟩
    exact nomatch hrole
  -- a real directory contributes a subpackage, which is no part of the package itself
  by_cases hdirectory : ∃ below, node = .directory below
  · obtain ⟨below, rfl⟩ := hdirectory
    rw [readEntry_directory, Fallible.map_eq_ok_iff]
    constructor
    · rintro ⟨child, -, rfl⟩
      exact nomatch hrole
    · rintro ⟨text, hspells, -⟩
      obtain ⟨node, hlookup', hnode, -⟩ := FileSystem.packageFile_singleton_iff.mp hspells.file
      exact absurd (Option.some.inj (hlookup'.symm.trans hlookup)) (hnode below)
  · have hnode : ∀ below, node ≠ .directory below := fun below h => hdirectory ⟨below, h⟩
    rw [readEntry_of_not_directory hlist hname hlookup hnode]
    constructor
    · intro hread
      split at hread
      · exact absurd hread hnothing
      · next hlink =>
        rw [readFile] at hread
        split at hread
        · exact absurd hread hnothing
        · next role' hrole' =>
          obtain ⟨text, htext, hc⟩ := Fallible.bind_eq_ok_iff.mp hread
          obtain rfl := Option.some.inj (hrole.symm.trans (FileRole.role?_of_contribution hc))
          have hfile : fs.PackageFile path entries [name] role :=
            FileSystem.packageFile_singleton_iff.mpr
              ⟨node, hlookup, hnode, Bool.eq_false_iff.mpr hlink, hrole'⟩
          exact ⟨text, ⟨hfile, ReadError.ofAccess_eq_ok_iff.mp htext⟩, hc⟩
    · rintro ⟨text, hspells, hc⟩
      obtain ⟨-, -, -, hlink, hrole'⟩ := FileSystem.packageFile_singleton_iff.mp hspells.file
      rw [hlink, if_neg Bool.false_ne_true, readFile, hrole', hspells.text]
      exact hc

/-- What is contributed to the package itself is contributed by the files. -/
theorem mem_contributions_iff (hfs : fs.WellNamed) (hlist : fs.entries path = .ok entries)
    {contributions : List Contribution}
    (hall : List.Forall₂ (fun e c => readEntry fs path e = .ok c) (sortByName entries)
      contributions)
    {role : FileRole} (hrole : c.role? = some role) :
    c ∈ contributions ↔ ∃ name text, fs.Spells path entries name role text ∧
      role.contribution (Path.join path name) text = .ok c := by
  constructor
  · intro hc
    obtain ⟨i, hi, rfl⟩ := List.mem_iff_getElem.mp hc
    have hi' : i < (sortByName entries).length := hall.length_eq ▸ hi
    have he := mem_sortByName_iff.mp (List.getElem_mem hi')
    exact ⟨_, (readEntry_eq_ok_iff hfs hlist he hrole).mp (hall.get hi' hi)⟩
  · rintro ⟨name, text, hspells, hcontribution⟩
    obtain ⟨node, hlookup, -⟩ := FileSystem.packageFile_singleton_iff.mp hspells.file
    have he : (name, node) ∈ entries := OrderedMap.mem_of_lookup hlookup
    obtain ⟨i, hi, hget⟩ := List.mem_iff_getElem.mp (mem_sortByName_iff.mpr he)
    have hi' : i < contributions.length := hall.length_eq ▸ hi
    have hread := (readEntry_eq_ok_iff hfs hlist he hrole).mpr ⟨text, hspells, hcontribution⟩
    have hentry := hall.get hi hi'
    rw [List.get_eq_getElem, hget, hread] at hentry
    exact Except.ok.inj hentry ▸ List.getElem_mem hi'

/-- Every file has contributed. -/
theorem exists_contribution_of_packageFile (hfs : fs.WellNamed)
    (hlist : fs.entries path = .ok entries) {contributions : List Contribution}
    (hall : List.Forall₂ (fun e c => readEntry fs path e = .ok c) (sortByName entries)
      contributions)
    {role : FileRole} (hfile : fs.PackageFile path entries [name] role) :
    ∃ text c, fs.Spells path entries name role text ∧
      role.contribution (Path.join path name) text = .ok c := by
  obtain ⟨node, hlookup, hnode, hlink, hrole⟩ := FileSystem.packageFile_singleton_iff.mp hfile
  have he : (name, node) ∈ entries := OrderedMap.mem_of_lookup hlookup
  have hname : IsEntryName name := hfs.isEntryName hlist he
  obtain ⟨i, hi, hget⟩ := List.mem_iff_getElem.mp (mem_sortByName_iff.mpr he)
  have hread := hall.get hi (hall.length_eq ▸ hi)
  rw [List.get_eq_getElem, hget, readEntry_of_not_directory hlist hname hlookup hnode, hlink,
    if_neg Bool.false_ne_true, readFile, hrole] at hread
  obtain ⟨text, htext, hc⟩ := Fallible.bind_eq_ok_iff.mp hread
  exact ⟨text, _, ⟨hfile, ReadError.ofAccess_eq_ok_iff.mp htext⟩, hc⟩

/-- A use that is that of one name only, so that there is at most one file for it in a directory:
what is contributed first is what the file of this name spells. -/
theorem findSome?_contributions_iff (hfs : fs.WellNamed) (hlist : fs.entries path = .ok entries)
    {contributions : List Contribution}
    (hall : List.Forall₂ (fun e c => readEntry fs path e = .ok c) (sortByName entries)
      contributions)
    {α : Type} {kind? : Contribution → Option α} (make : α → Contribution) {role : FileRole}
    {own : String} {parse : String → Except Fault α}
    (hkind : ∀ c a, kind? c = some a ↔ c = make a) (hrole : ∀ a, (make a).role? = some role)
    (hown : ∀ name, FileRole.ofName? name = some role → name = own)
    (hparse : ∀ text a,
      role.contribution (Path.join path own) text = .ok (make a) ↔ parse text = .ok a) (a : α) :
    contributions.findSome? kind? = some a ↔
      ∃ text, fs.Spells path entries own role text ∧ parse text = .ok a := by
  have hmem : ∀ a, make a ∈ contributions ↔
      ∃ text, fs.Spells path entries own role text ∧ parse text = .ok a := by
    intro a
    rw [mem_contributions_iff hfs hlist hall (hrole a)]
    constructor
    · rintro ⟨name, text, hspells, hcontribution⟩
      obtain rfl := hown name hspells.role_eq
      exact ⟨text, hspells, (hparse text a).mp hcontribution⟩
    · rintro ⟨text, hspells, hok⟩
      exact ⟨own, text, hspells, (hparse text a).mpr hok⟩
  have hfirst : ∀ a, contributions.findSome? kind? = some a → make a ∈ contributions := by
    intro a h
    obtain ⟨c, hc, hca⟩ := List.exists_of_findSome?_eq_some h
    exact (hkind c a).mp hca ▸ hc
  constructor
  · exact fun h => (hmem a).mp (hfirst a h)
  · rintro ⟨text, hspells, hok⟩
    have hsome : (contributions.findSome? kind?).isSome := by
      rw [List.findSome?_isSome_iff]
      exact ⟨make a, (hmem a).mpr ⟨text, hspells, hok⟩, (hkind _ a).mpr rfl ▸ rfl⟩
    obtain ⟨b, hb⟩ := Option.isSome_iff_exists.mp hsome
    -- the file of this name has one text only, so what is found first is this
    obtain ⟨text', hspells', hok'⟩ := (hmem b).mp (hfirst b hb)
    obtain rfl := Except.ok.inj (hspells.text.symm.trans hspells'.text)
    rw [hb, Except.ok.inj (hok'.symm.trans hok)]

theorem ofDirectory_of_readDirectory (hfs : fs.WellNamed) (hlist : fs.entries path = .ok entries)
    (hname : fs.nameOf path = .ok name) (hread : readDirectory fs name path entries = .ok t) :
    t.source.OfDirectory fs path entries := by
  obtain ⟨contributions, hall, rfl⟩ := readDirectory_eq_ok_iff.mp hread
  refine ⟨hlist, rfl, hname, ?_, ?_, ?_, ?_⟩
  · refine findSome?_contributions_iff hfs hlist hall .metadata ?_ (fun _ => rfl)
      (fun _ => FileRole.eq_of_ofName?_metadata) ?_
    · intro c m
      cases c <;> simp [Contribution.metadata?]
    · intro text m
      simp [FileRole.contribution_metadata_iff]
  · refine findSome?_contributions_iff hfs hlist hall .versions ?_ (fun _ => rfl)
      (fun _ => FileRole.eq_of_ofName?_versions) ?_
    · intro c table
      cases c <;> simp [Contribution.versions?]
    · intro text table
      simp [FileRole.contribution_versions_iff]
  -- of the two fixed names there is one file each, but any number of definitions
  · intro d
    have hkind : ∀ c, Contribution.definition? c = some d ↔ c = .definition d := by
      intro c
      cases c <;> simp [Contribution.definition?]
    show d ∈ contributions.filterMap Contribution.definition? ↔ _
    simp only [List.mem_filterMap, hkind, exists_eq_right]
    rw [mem_contributions_iff hfs hlist hall rfl]
    simp only [FileRole.contribution_definition_iff, Contribution.definition.injEq]
    constructor
    · rintro ⟨name, text, hspells, content, hcontent, hd⟩
      exact ⟨name, text, content, hspells, hcontent, hd.symm⟩
    · rintro ⟨name, text, content, hspells, hcontent, hd⟩
      exact ⟨name, text, hspells, content, hcontent, hd.symm⟩
  · intro name hfile
    obtain ⟨text, c, hspells, hc⟩ := exists_contribution_of_packageFile hfs hlist hall hfile
    obtain ⟨content, hcontent, -⟩ := FileRole.contribution_definition_iff.mp hc
    exact ⟨text, content, hspells, hcontent⟩

/-- A directory that was read as part of another is listed, and has the name of its entry. -/
theorem entries_join_of_readDirectory (hfs : fs.WellNamed) (hlist : fs.entries path = .ok entries)
    (hread : readDirectory fs name path entries = .ok t) {own : String}
    {below : List (String × FileNode)} (hmem : (own, FileNode.directory below) ∈ entries) :
    fs.entries (Path.join path own) = .ok below ∧ fs.nameOf (Path.join path own) = .ok own := by
  obtain ⟨contributions, hall, -⟩ := readDirectory_eq_ok_iff.mp hread
  obtain ⟨i, hi, hget⟩ := List.mem_iff_getElem.mp (mem_sortByName_iff.mpr hmem)
  have hi' : i < contributions.length := hall.length_eq ▸ hi
  have hentry := hall.get hi hi'
  simp only [List.get_eq_getElem, hget, readEntry_directory] at hentry
  -- it would not have been read if its path had been too long to be listed
  obtain ⟨_, hchild, -⟩ := Fallible.map_eq_ok_iff.mp hentry
  obtain ⟨_, hcheck, -⟩ := Fallible.bind_eq_ok_iff.mp hchild
  have hown : IsEntryName own := hfs.isEntryName hlist hmem
  have hpath : path ≠ "" :=
    FileSystem.ne_empty_of_checkPath (FileSystem.checkPath_of_entries hlist)
  rw [hfs.entries_join hlist hmem, ReadError.ofAccess_eq_ok_iff.mp hcheck]
  exact ⟨rfl, FileSystem.nameOf_join hpath hown⟩

theorem exists_ofDirectory_of_at? (hfs : fs.WellNamed) (hlist : fs.entries path = .ok entries)
    (hname : fs.nameOf path = .ok name) (hread : readDirectory fs name path entries = .ok t)
    {p : Place} (hp : t.at? p = some sub) :
    ∃ directory below, sub.source.OfDirectory fs directory below := by
  induction p generalizing t name path entries with
  | nil =>
      obtain rfl := Option.some.inj hp
      exact ⟨path, entries, ofDirectory_of_readDirectory hfs hlist hname hread⟩
  | cons k rest ih =>
      obtain ⟨c, hc, hrest⟩ := at?_cons_eq_some_iff.mp hp
      obtain ⟨below, hmem, hchild⟩ := exists_subdirectory_of_child hread hc
      obtain ⟨hlist', hname'⟩ := entries_join_of_readDirectory hfs hlist hread hmem
      exact ih hlist' hname' hchild hrest

/-- Every package that was read is of a directory. -/
theorem exists_ofDirectory_of_read (hfs : fs.WellNamed) (hread : read fs path = .ok t) {p : Place}
    (hp : t.at? p = some sub) :
    ∃ directory entries, sub.source.OfDirectory fs directory entries := by
  obtain ⟨name, entries, hname, hlist, hread⟩ := read_eq_ok_iff.mp hread
  exact exists_ofDirectory_of_at? hfs hlist hname hread hp

end SourceTree

end BlueprintPackages
