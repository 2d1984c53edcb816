import BlueprintPackages.Proofs.Files.Opening
import BlueprintPackages.Proofs.Source.Reading

/-!
# What cannot be read

Each fault in the files below a directory has a location: that of a file that cannot be read or does
not hold what it should (`FileFault`), or that of a directory that cannot be named or listed
(`DirectoryFault`). Entries are visited in the order of their names, a directory with all that is in
it at its place among the files, which is the order of locations. Reading `Finds` the first fault in
this order: it succeeds if there is none, and fails with the first if there is any (`finds_read`).

That is proved from the inside out. An entry that is no directory finds its own fault
(`finds_of_not_directory`), a directory whose entries all find the first of theirs finds the first
of all (`finds_of_entries`), and `finds_readDirectory` puts this together along the tree of files.
-/

namespace BlueprintPackages

/-! ## Faults -/

/-- Of all faults the one at the first location, in the order in which a walk comes by. -/
def FirstFault (fault : Location → ReadError → Prop) (error : ReadError) : Prop :=
  ∃ location, fault location error ∧
    ∀ location' error', fault location' error' →
      location = location' ∨ location.Before location'

namespace FileSystem

/-- Why the file at a path is of no use as what it is for. -/
inductive Unusable (fs : FileSystem) (path : String) : FileRole → ReadError → Prop
  | unread {role : FileRole} {error : AccessError} (hread : fs.readText path = .error error) :
      Unusable fs path role (.access path error)
  | metadata {text : String} {fault : Fault} (hread : fs.readText path = .ok text)
      (hparse : Metadata.ofText text = .error fault) : Unusable fs path .metadata (.json path fault)
  | versions {text : String} {fault : Fault} (hread : fs.readText path = .ok text)
      (hparse : VersionTable.ofText path text = .error fault) :
      Unusable fs path .versions (.json path fault)
  | definition {text : String} {fault : Fault} (hread : fs.readText path = .ok text)
      (hparse : Json.ofText text = .error fault) : Unusable fs path .definition (.json path fault)
  | noObject {text : String} {value : Json} (hread : fs.readText path = .ok text)
      (hparse : Json.ofText text = .ok value) (hvalue : ∀ content, value ≠ .object content) :
      Unusable fs path .definition (.field (.wrongShape "<root>" path .object))

/-- At a location below a directory with the given path and entries there is a file for the given
use: the name says so, and there is no directory, nor a link to one. -/
inductive PackageFile (fs : FileSystem) (path : String) (start : List (String × FileNode)) :
    Location → FileRole → Prop
  | mk (up : Location) (name : String) {node : FileNode} {role : FileRole}
      (hat : (FileNode.directory start).at? (up ++ [name]) = some node)
      (hnode : ∀ entries, node ≠ .directory entries)
      (hlink : fs.isDirectory (Path.joinAll path (up ++ [name])) = false)
      (hrole : FileRole.ofName? name = some role) : PackageFile fs path start (up ++ [name]) role

/-- At a location below the directory at a path there is a file that is of no use. -/
inductive FileFault (fs : FileSystem) (path : String) : Location → ReadError → Prop
  | mk {start : List (String × FileNode)} {location : Location} {role : FileRole}
      {error : ReadError} (hstart : fs.entries path = .ok start)
      (hfile : fs.PackageFile path start location role)
      (hfault : fs.Unusable (Path.joinAll path location) role error) :
      FileFault fs path location error

/-- The directory at a path has no name or cannot be listed, or that is so of a real directory at a
location below it. -/
inductive DirectoryFault (fs : FileSystem) (path : String) : Location → ReadError → Prop
  | unnamed {error : AccessError} (hname : fs.nameOf path = .error error) :
      DirectoryFault fs path [] (.access path error)
  | unlisted {name : String} {error : AccessError} (hname : fs.nameOf path = .ok name)
      (hlist : fs.entries path = .error error) : DirectoryFault fs path [] (.access path error)
  | below {start below : List (String × FileNode)} {location : Location} {error : AccessError}
      (hstart : fs.entries path = .ok start)
      (hat : (FileNode.directory start).at? location = some (.directory below))
      (hlist : fs.entries (Path.joinAll path location) = .error error) :
      DirectoryFault fs path location (.access (Path.joinAll path location) error)

/-- What goes wrong below the directory at a path before anything is built. -/
def ReadFault (fs : FileSystem) (path : String) (location : Location) (error : ReadError) : Prop :=
  fs.DirectoryFault path location error ∨ fs.FileFault path location error

/-! ## Faults below a directory -/

/-- The faults below a directory with the given path and entries, whether or not they are listed. -/
inductive FaultBelow (fs : FileSystem) (path : String) (start : List (String × FileNode)) :
    Location → ReadError → Prop
  | directory {below : List (String × FileNode)} {location : Location} {error : AccessError}
      (hat : (FileNode.directory start).at? location = some (.directory below))
      (hlist : fs.entries (Path.joinAll path location) = .error error) :
      FaultBelow fs path start location (.access (Path.joinAll path location) error)
  | file {location : Location} {role : FileRole} {error : ReadError}
      (hfile : fs.PackageFile path start location role)
      (hfault : fs.Unusable (Path.joinAll path location) role error) :
      FaultBelow fs path start location error

variable {fs : FileSystem} {path name : String} {start below : List (String × FileNode)}
  {location rest : Location} {error : ReadError}

theorem readFault_iff_faultBelow {own : String} (hname : fs.nameOf path = .ok own)
    (hstart : fs.entries path = .ok start) :
    fs.ReadFault path location error ↔ fs.FaultBelow path start location error := by
  constructor
  · rintro ((hname' | ⟨-, hlist⟩ | ⟨hstart', hat, hlist⟩) | ⟨hstart', hfile, hfault⟩)
    · exact nomatch hname.symm.trans hname'
    · exact nomatch hstart.symm.trans hlist
    · obtain rfl := Except.ok.inj (hstart.symm.trans hstart')
      exact .directory hat hlist
    · obtain rfl := Except.ok.inj (hstart.symm.trans hstart')
      exact .file hfile hfault
  · rintro (⟨hat, hlist⟩ | ⟨hfile, hfault⟩)
    · exact .inl (.below hstart hat hlist)
    · exact .inr ⟨hstart, hfile, hfault⟩

/-- Below a directory that is listed every fault is at or below one of its entries. -/
theorem exists_entry_of_faultBelow (hstart : fs.entries path = .ok start)
    (h : fs.FaultBelow path start location error) :
    ∃ name rest node, location = name :: rest ∧ start.lookup name = some node := by
  obtain ⟨found, hat⟩ : ∃ found, (FileNode.directory start).at? location = some found := by
    cases h with
    | directory hat _ => exact ⟨_, hat⟩
    | file hfile _ =>
        cases hfile with
        | mk _ _ hat _ _ _ => exact ⟨_, hat⟩
  -- the directory itself is listed, so the fault is not at its own place
  cases location with
  | cons name rest =>
      obtain ⟨_, node, hentries, hlookup, -⟩ := FileNode.at?_cons_eq_some_iff.mp hat
      obtain rfl := FileNode.directory.inj hentries
      exact ⟨name, rest, node, rfl, hlookup⟩
  | nil =>
      generalize hnil : ([] : Location) = location at h
      cases h with
      | directory _ hlist =>
          obtain rfl := hnil
          exact nomatch hstart.symm.trans hlist
      | file hfile _ =>
          cases hfile with
          | mk _ _ _ _ _ _ =>
              exact absurd hnil.symm
                (List.append_ne_nil_of_right_ne_nil _ (List.cons_ne_nil _ _))

/-- Faults at or below a directory in another are its own, each at the rest of its location. -/
theorem faultBelow_cons_directory_iff (hlookup : start.lookup name = some (.directory below)) :
    fs.FaultBelow path start (name :: rest) error ↔
      fs.FaultBelow (Path.join path name) below rest error := by
  have hat : ∀ location, (FileNode.directory start).at? (name :: location) =
      (FileNode.directory below).at? location := fun location => by
    rw [FileNode.at?_directory_cons, hlookup, Option.bind_some]
  constructor
  · intro h
    generalize hlocation : name :: rest = location at h
    cases h with
    | directory hfound hlist =>
        obtain rfl := hlocation
        exact .directory ((hat rest).symm.trans hfound) hlist
    | file hfile hfault =>
        cases hfile with
        | @mk up last node role hfound hnode hlink hrole =>
            cases up with
            | nil =>
                obtain ⟨rfl, rfl⟩ := List.cons.inj hlocation
                rw [List.nil_append, hat, FileNode.at?_nil] at hfound
                exact absurd (Option.some.inj hfound).symm (hnode below)
            | cons first up =>
                obtain ⟨rfl, rfl⟩ := List.cons.inj hlocation
                exact .file (.mk up last ((hat _).symm.trans hfound) hnode hlink hrole) hfault
  · intro h
    cases h with
    | directory hfound hlist => exact .directory ((hat rest).trans hfound) hlist
    | file hfile hfault =>
        cases hfile with
        | @mk up last node role hfound hnode hlink hrole =>
            exact .file (.mk (name :: up) last ((hat _).trans hfound) hnode hlink hrole) hfault

/-- Any other entry has its own faults only. -/
theorem faultBelow_cons_file_iff {node : FileNode} (hlookup : start.lookup name = some node)
    (hnode : ∀ entries, node ≠ .directory entries) :
    fs.FaultBelow path start (name :: rest) error ↔
      rest = [] ∧ fs.isDirectory (Path.join path name) = false ∧
        ∃ role, FileRole.ofName? name = some role ∧
          fs.Unusable (Path.join path name) role error := by
  have hat : ∀ location found, (FileNode.directory start).at? (name :: location) = some found →
      location = [] ∧ found = node := by
    intro location found h
    rw [FileNode.at?_directory_cons, hlookup, Option.bind_some] at h
    cases location with
    | nil =>
        rw [FileNode.at?_nil] at h
        exact ⟨rfl, (Option.some.inj h).symm⟩
    | cons next more =>
        obtain ⟨entries, -, rfl, -, -⟩ := FileNode.at?_cons_eq_some_iff.mp h
        exact absurd rfl (hnode entries)
  constructor
  · intro h
    generalize hlocation : name :: rest = location at h
    cases h with
    | directory hfound hlist =>
        obtain rfl := hlocation
        exact absurd (hat _ _ hfound).2.symm (hnode _)
    | file hfile hfault =>
        cases hfile with
        | @mk up last found role hfound hfile hlink hrole =>
            cases up with
            | nil =>
                obtain ⟨rfl, rfl⟩ := List.cons.inj hlocation
                exact ⟨rfl, hlink, _, hrole, hfault⟩
            | cons first up =>
                obtain ⟨rfl, rfl⟩ := List.cons.inj hlocation
                have hnil := (hat _ _ hfound).1
                exact absurd hnil (List.append_ne_nil_of_right_ne_nil _ (List.cons_ne_nil _ _))
  · rintro ⟨rfl, hlink, role, hrole, hfault⟩
    have hfound : (FileNode.directory start).at? ([] ++ [name]) = some node := by
      rw [List.nil_append, FileNode.at?_directory_cons, hlookup, Option.bind_some, FileNode.at?_nil]
    exact .file (.mk [] name hfound hnode hlink hrole) hfault

end FileSystem

/-! ## Reading finds the first fault -/

namespace SourceTree

variable {fs : FileSystem} {path name : String} {entries : List (String × FileNode)}
  {node : FileNode} {error : ReadError}

/-- The rules for files are what runs. -/
theorem unusable_iff {role : FileRole} :
    fs.Unusable path role error ↔
      (ReadError.ofAccess path (fs.readText path) >>= fun text => role.contribution path text) =
        .error error := by
  simp only [Fallible.bind_eq_error_iff, ReadError.ofAccess_eq_error_iff,
    ReadError.ofAccess_eq_ok_iff]
  constructor
  · intro h
    cases h with
    | unread hread => exact .inl ⟨_, hread, rfl⟩
    | metadata hread hparse => exact .inr ⟨_, hread, by rw [FileRole.contribution, hparse]; rfl⟩
    | versions hread hparse => exact .inr ⟨_, hread, by rw [FileRole.contribution, hparse]; rfl⟩
    | definition hread hparse => exact .inr ⟨_, hread, by rw [FileRole.contribution, hparse]; rfl⟩
    | @noObject text value hread hparse hvalue =>
        refine .inr ⟨_, hread, ?_⟩
        rw [FileRole.contribution, hparse]
        cases value with
        | object content => exact absurd rfl (hvalue content)
        | null | boolean | number | string | array => rfl
  · rintro (⟨e, hread, rfl⟩ | ⟨text, hread, hparse⟩)
    · exact .unread hread
    -- of the three uses only a definition can still be refused when it has been parsed
    · cases role with
      | metadata =>
          rw [FileRole.contribution, Fallible.map_eq_error_iff, ReadError.ofFault_eq_error_iff]
            at hparse
          obtain ⟨fault, hparse, rfl⟩ := hparse
          exact .metadata hread hparse
      | versions =>
          rw [FileRole.contribution, Fallible.map_eq_error_iff, ReadError.ofFault_eq_error_iff]
            at hparse
          obtain ⟨fault, hparse, rfl⟩ := hparse
          exact .versions hread hparse
      | definition =>
          simp only [FileRole.contribution, Fallible.bind_eq_error_iff,
            ReadError.ofFault_eq_error_iff, ReadError.ofFault_eq_ok_iff,
            ReadError.ofField_eq_error_iff] at hparse
          obtain ⟨fault, hparse, rfl⟩ | ⟨value, hparse, ⟨e, hobject, rfl⟩ | ⟨_, -, hpure⟩⟩ := hparse
          · exact .definition hread hparse
          · cases value with
            | object content => exact nomatch hobject
            | null | boolean | number | string | array =>
                obtain rfl := Except.error.inj hobject
                exact .noObject hread hparse fun _ h => nomatch h
          · exact nomatch hpure

theorem readFile_eq_error_iff :
    readFile name path (fs.readText path) = .error error ↔
      ∃ role, FileRole.ofName? name = some role ∧ fs.Unusable path role error := by
  rw [readFile]
  cases FileRole.ofName? name with
  | none => simp
  | some role => simp only [Option.some.injEq, exists_eq_left', unusable_iff]

/-- A file that is of use has been read and parsed. -/
theorem exists_contribution_of_usable {role : FileRole}
    (h : ∀ error, ¬ fs.Unusable path role error) :
    ∃ text contribution, fs.readText path = .ok text ∧
      role.contribution path text = .ok contribution := by
  obtain ⟨contribution, hok⟩ := Fallible.exists_ok_of_forall_ne_error fun error herror =>
    h error (unusable_iff.mpr herror)
  obtain ⟨text, hread, hparse⟩ := Fallible.bind_eq_ok_iff.mp hok
  exact ⟨text, contribution, ReadError.ofAccess_eq_ok_iff.mp hread, hparse⟩

/-- An entry that is no real directory is read like a link, be it one or not. -/
theorem readEntry_of_not_directory (hlist : fs.entries path = .ok entries)
    (hname : IsEntryName name) (hlookup : entries.lookup name = some node)
    (hnode : ∀ below, node ≠ .directory below) :
    readEntry fs path (name, node) =
      if fs.isDirectory (Path.join path name) then .ok .nothing
      else readFile name (Path.join path name) (fs.readText (Path.join path name)) := by
  cases node with
  | file bytes =>
      rw [FileSystem.isDirectory_join hlist hname hlookup,
        FileSystem.readText_join hlist hname hlookup]
      rfl
  | link target => rw [readEntry, readNode]
  | directory below => exact absurd rfl (hnode below)

/-- What reading comes to tells of the faults: without an error there is none, and an error is the
first of them. -/
def Finds {α : Type} (outcome : Except ReadError α) (fault : Location → ReadError → Prop) : Prop :=
  match outcome with
  | .ok _ => ∀ location error, ¬ fault location error
  | .error error => FirstFault fault error

theorem finds_of_not_directory (hlist : fs.entries path = .ok entries) (hname : IsEntryName name)
    (hlookup : entries.lookup name = some node) (hnode : ∀ below, node ≠ .directory below) :
    Finds (readEntry fs path (name, node))
      fun rest error => fs.FaultBelow path entries (name :: rest) error := by
  simp only [FileSystem.faultBelow_cons_file_iff hlookup hnode]
  rw [readEntry_of_not_directory hlist hname hlookup hnode]
  split
  · next hlink =>
    rintro rest error ⟨-, hfalse, -⟩
    exact nomatch hlink.symm.trans hfalse
  · next hlink =>
    cases hread : readFile name (Path.join path name) (fs.readText (Path.join path name)) with
    | ok c =>
        rintro rest error ⟨-, -, hrole⟩
        exact nomatch hread.symm.trans (readFile_eq_error_iff.mpr hrole)
    | error error =>
        refine ⟨[], ⟨rfl, Bool.eq_false_iff.mpr hlink, readFile_eq_error_iff.mp hread⟩, ?_⟩
        rintro rest error' ⟨rfl, -⟩
        exact .inl rfl

/-- A directory finds the first of the faults below it, if its entries do. -/
theorem finds_of_entries (hlist : fs.entries path = .ok entries)
    (hdistinct : (FileNode.directory entries).DistinctNames)
    (h : ∀ name node, entries.lookup name = some node →
      Finds (readEntry fs path (name, node))
        fun rest error => fs.FaultBelow path entries (name :: rest) error) (own : String) :
    Finds (readDirectory fs own path entries) (fs.FaultBelow path entries) := by
  cases hread : readDirectory fs own path entries with
  | ok t =>
      intro location error hfault
      obtain ⟨name, rest, node, rfl, hlookup⟩ := FileSystem.exists_entry_of_faultBelow hlist hfault
      obtain ⟨contributions, hall, -⟩ := readDirectory_eq_ok_iff.mp hread
      -- all entries were read, so the entry of the fault was read without one
      obtain ⟨i, hi, hget⟩ := List.mem_iff_getElem.mp
        (mem_sortByName_iff.mpr (OrderedMap.mem_of_lookup hlookup))
      have hentry := hall.get hi (hall.length_eq ▸ hi)
      have hfinds := h name node hlookup
      rw [List.get_eq_getElem, hget] at hentry
      rw [hentry] at hfinds
      exact hfinds rest error hfault
  | error error =>
      obtain ⟨before, ⟨name, node⟩, after, hsplit, hbefore, hentry⟩ :=
        readDirectory_eq_error_iff.mp hread
      have hmem : ∀ e, e ∈ before ++ (name, node) :: after ↔ e ∈ entries := fun e => by
        rw [← hsplit, mem_sortByName_iff]
      have hlookup : entries.lookup name = some node :=
        hdistinct.lookup_iff.mpr ((hmem _).mp (by simp))
      have hfinds := h name node hlookup
      rw [hentry] at hfinds
      obtain ⟨rest, hfault, hfirst⟩ := hfinds
      refine ⟨name :: rest, hfault, ?_⟩
      intro location' error' hfault'
      obtain ⟨name', rest', node', rfl, hlookup'⟩ :=
        FileSystem.exists_entry_of_faultBelow hlist hfault'
      -- the other fault is at an entry before, at the very same, or at one behind
      have hmem' := (hmem _).mpr (OrderedMap.mem_of_lookup hlookup')
      rw [List.mem_append, List.mem_cons, Prod.mk.injEq] at hmem'
      obtain hearlier | ⟨rfl, rfl⟩ | hlater := hmem'
      · obtain ⟨c, hok⟩ := hbefore _ hearlier
        have hnone := h name' node' hlookup'
        rw [hok] at hnone
        exact absurd hfault' (hnone rest' error')
      · obtain rfl | hlt := hfirst rest' error' hfault'
        · exact .inl rfl
        · exact .inr (Location.cons_before_cons_iff.mpr hlt)
      · refine .inr (Location.before_of_lt ?_ _ _)
        have hpairwise := sortByName_pairwise hdistinct.entries_good
        rw [hsplit, List.pairwise_append, List.pairwise_cons] at hpairwise
        exact hpairwise.2.1.1 _ hlater

/-- Reading a directory that is listed finds the first fault below it. -/
theorem finds_readDirectory (hfs : fs.WellNamed) {node : FileNode}
    (hnode : node = .directory entries) (hlist : fs.entries path = .ok entries) (own : String) :
    Finds (readDirectory fs own path entries) (fs.FaultBelow path entries) := by
  induction node using FileNode.induction generalizing path entries own with
  | file bytes => exact nomatch hnode
  | link target => exact nomatch hnode
  | directory entries' ih =>
      obtain rfl := FileNode.directory.inj hnode
      refine finds_of_entries hlist (hfs.distinct_of_entries hlist) ?_ own
      intro name node hlookup
      have hmem := OrderedMap.mem_of_lookup hlookup
      by_cases hdirectory : ∃ below, node = .directory below
      · obtain ⟨below, rfl⟩ := hdirectory
        simp only [FileSystem.faultBelow_cons_directory_iff hlookup]
        rw [readEntry_directory]
        have hbelow := hfs.entries_join hlist hmem
        cases hcheck : FileSystem.checkPath (Path.join path name) with
        | error error =>
            -- a path too long is the fault of the directory itself, ahead of all that is below it
            rw [hcheck] at hbelow
            refine ⟨[], .directory (FileNode.at?_nil _) hbelow, ?_⟩
            intro location' error' _
            cases location' with
            | nil => exact .inl rfl
            | cons next more => exact .inr (Location.nil_before_cons _ _)
        | ok _ =>
            rw [hcheck] at hbelow
            have hfinds := ih _ hmem rfl hbelow name
            cases hread : readDirectory fs name (Path.join path name) below with
            | ok t =>
                simpa [hread, Finds, ReadError.ofAccess, bind, Except.bind, Except.map] using hfinds
            | error error =>
                simpa [hread, Finds, ReadError.ofAccess, bind, Except.bind, Except.map] using hfinds
      · exact finds_of_not_directory hlist (hfs.isEntryName hlist hmem)
          hlookup fun below h => hdirectory ⟨below, h⟩

/-- Reading finds the first fault there is. -/
theorem finds_read (hfs : fs.WellNamed) (path : String) :
    Finds (read fs path) (fs.ReadFault path) := by
  have hfirst : ∀ error, fs.ReadFault path [] error → FirstFault (fs.ReadFault path) error := by
    intro error h
    refine ⟨[], h, ?_⟩
    intro location' error' _
    cases location' with
    | nil => exact .inl rfl
    | cons next more => exact .inr (Location.nil_before_cons _ _)
  rw [read]
  cases hname : fs.nameOf path with
  | error error => exact hfirst _ (.inl (.unnamed hname))
  | ok own =>
      cases hlist : fs.entries path with
      | error error => exact hfirst _ (.inl (.unlisted hname hlist))
      | ok entries =>
          have hfinds := finds_readDirectory hfs rfl hlist own
          have hsame : fs.ReadFault path = fs.FaultBelow path entries :=
            funext₂ fun _ _ => propext (FileSystem.readFault_iff_faultBelow hname hlist)
          rw [hsame]
          exact hfinds

end SourceTree

end BlueprintPackages
