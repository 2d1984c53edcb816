import BlueprintPackages.Loader
import BlueprintPackages.Proofs.Source.Faults

/-!
# Loads fail with the first fault

A load reads all of its files before it builds anything. So whatever the loader, of many faults
below a directory the first is reported, and none that is only found in building
(`fails_with_first_fault`). Where all directories can be listed, that is the first file that cannot
be read or does not hold what it should.

A directory counts as well as a file: its path can be too long where that of a later file is not,
and then the error of the file is not seen (`unlisted_directory_hides_fault`). Long paths are made
with slashes at the end, which change nothing but the length (`entries_withSlashes`).
-/

namespace BlueprintPackages

namespace Loader

variable {fs : FileSystem} {path : String}

theorem load_of_read_eq_error {error : ReadError} (h : SourceTree.read fs path = .error error)
    (l : Loader) (stamp : Nat) :
    l.load fs stamp path = .error (.read error) ∧
      l.loadSystem fs stamp path = .error (.read error) := by
  constructor
  · rw [load, loadWith, h]
  · rw [loadSystem, loadWith, h]

theorem loadWith_eq_error_iff {l : Loader} {system : SystemLink PackageTree} {stamp : Nat}
    {error : LoadError} :
    l.loadWith system fs stamp path = .error error ↔
      (∃ e, SourceTree.read fs path = .error e ∧ error = .read e) ∨
        ∃ source e, SourceTree.read fs path = .ok source ∧
          source.toTree l.registry system stamp = .error e ∧ error = .build e := by
  rw [loadWith]
  cases SourceTree.read fs path with
  | error e => simp [eq_comm]
  | ok source => cases htree : source.toTree l.registry system stamp <;> simp [htree, eq_comm]

/-- If a directory or a file cannot be read, every load fails with the first fault, and with nothing
that is found in building. Where every directory can be named and listed, that is the first fault of
a file. A load that fails in building has read and parsed every file of a package. -/
theorem fails_with_first_fault (hfs : fs.WellNamed) (path : String) :
    (∀ location error, fs.ReadFault path location error →
      ∃ first, FirstFault (fs.ReadFault path) first ∧ ∀ (l : Loader) (stamp : Nat),
        l.load fs stamp path = .error (.read first) ∧
          l.loadSystem fs stamp path = .error (.read first)) ∧
    ((∀ location error, ¬ fs.DirectoryFault path location error) →
      ∀ location error, fs.FileFault path location error →
        ∃ first, FirstFault (fs.FileFault path) first ∧ ∀ (l : Loader) (stamp : Nat),
          l.load fs stamp path = .error (.read first) ∧
            l.loadSystem fs stamp path = .error (.read first)) ∧
    (∀ (l : Loader) (stamp : Nat) (error : ReadError),
      l.load fs stamp path = .error (.read error) ∨
        l.loadSystem fs stamp path = .error (.read error) →
      FirstFault (fs.ReadFault path) error) ∧
    ∀ (l : Loader) (stamp : Nat) (error : BuildError),
      l.load fs stamp path = .error (.build error) ∨
        l.loadSystem fs stamp path = .error (.build error) →
      (∀ location e, ¬ fs.DirectoryFault path location e) ∧
      ∃ start, fs.entries path = .ok start ∧
        ∀ location role, fs.PackageFile path start location role →
          ∃ text contribution, fs.readText (Path.joinAll path location) = .ok text ∧
            role.contribution (Path.joinAll path location) text = .ok contribution := by
  have hfinds := SourceTree.finds_read hfs path
  -- a fault of any kind keeps reading from success, and reading reports the first of all
  have hfails : ∀ location error, fs.ReadFault path location error →
      ∃ first, FirstFault (fs.ReadFault path) first ∧ ∀ (l : Loader) (stamp : Nat),
        l.load fs stamp path = .error (.read first) ∧
          l.loadSystem fs stamp path = .error (.read first) := by
    intro location error hfault
    cases hread : SourceTree.read fs path with
    | ok source =>
        rw [hread] at hfinds
        exact absurd hfault (hfinds location error)
    | error first =>
        rw [hread] at hfinds
        exact ⟨first, hfinds, load_of_read_eq_error hread⟩
  refine ⟨hfails, ?_, ?_, ?_⟩
  · intro hdirectories location error hfault
    obtain ⟨first, ⟨place, hfirst, hleast⟩, hload⟩ := hfails location error (.inr hfault)
    -- where no directory is at fault, the first of all faults is that of a file
    have hfile : fs.FileFault path place first := hfirst.resolve_left (hdirectories place first)
    exact ⟨first, ⟨place, hfile, fun location' error' h => hleast location' error' (.inr h)⟩, hload⟩
  · intro l stamp error hload
    have hread : SourceTree.read fs path = .error error := by
      rcases hload with hload | hload
      all_goals
        obtain ⟨e, hread, he⟩ | ⟨_, _, -, -, he⟩ := loadWith_eq_error_iff.mp hload
        · obtain rfl := LoadError.read.inj he
          exact hread
        · exact nomatch he
    rw [hread] at hfinds
    exact hfinds
  · intro l stamp error hload
    obtain ⟨source, hread⟩ : ∃ source, SourceTree.read fs path = .ok source := by
      rcases hload with hload | hload
      all_goals
        obtain ⟨e, -, he⟩ | ⟨source, _, hread, -, -⟩ := loadWith_eq_error_iff.mp hload
        · exact nomatch he
        · exact ⟨source, hread⟩
    rw [hread] at hfinds
    obtain ⟨_, start, -, hstart, -⟩ := SourceTree.read_eq_ok_iff.mp hread
    refine ⟨fun location e h => hfinds location e (.inl h), start, hstart, ?_⟩
    intro location role hfile
    exact SourceTree.exists_contribution_of_usable fun e he =>
      hfinds location e (.inr ⟨hstart, hfile, he⟩)

/-! ### Many faults -/

/-- Three faults: an entity without a type, a directory in which an entity file breaks off, and
metadata that break off too. -/
def yardEntries : List (String × FileNode) :=
  [("crane.json", .file "\x7b\x7d".toUTF8),
    ("dock", .directory [("pier.json", .file "[".toUTF8)]),
    ("package.json", .file "\x7b".toUTF8)]

def yardFiles : FileSystem where
  root := .directory [("yard", .directory yardEntries)]
  workingDirectory := []

/-- The second of them is the first that is found in reading, and every load fails with it. -/
theorem fails_with_first_fault_yard :
    yardFiles.WellNamed ∧
      FirstFault (yardFiles.ReadFault "yard") (.json "yard/dock/pier.json" .truncated) ∧
      ∀ (l : Loader) (stamp : Nat), l.load yardFiles stamp "yard" =
        .error (.read (.json "yard/dock/pier.json" .truncated)) := by
  have hfs : yardFiles.WellNamed := by decide +kernel
  have hname : yardFiles.nameOf "yard" = .ok "yard" := by rfl
  have hentries : yardFiles.entries "yard" = .ok yardEntries := by rfl
  have hread : (SourceTree.read yardFiles "yard").map (fun _ => ()) =
      .error (.json "yard/dock/pier.json" .truncated) := by
    rw [SourceTree.read_of_sorted hname hentries (by decide)]
    decide +kernel
  rw [Fallible.map_eq_error_iff] at hread
  have hload := (load_of_read_eq_error hread standard 1).1
  have hfirst := (fails_with_first_fault hfs "yard").2.2.1 standard 1 _ (.inl hload)
  exact ⟨hfs, hfirst, fun l stamp => (load_of_read_eq_error hread l stamp).1⟩

/-! ### Long paths -/

/-- A path with so many slashes at its end. -/
def withSlashes (path : String) : Nat → String
  | 0 => path
  | n + 1 => withSlashes path n ++ "/"

theorem utf8ByteSize_withSlashes (path : String) (n : Nat) :
    (withSlashes path n).utf8ByteSize = path.utf8ByteSize + n := by
  induction n with
  | zero => rfl
  | succ n ih =>
      have hslash : "/".utf8ByteSize = 1 := by rfl
      rw [withSlashes, String.utf8ByteSize_append, ih, hslash, Nat.add_assoc]

theorem nameOf_withSlashes {name : String} (hname : Path.lastName? path = some name) (n : Nat) :
    fs.nameOf (withSlashes path n) = .ok name := by
  have hlast : Path.lastName? (withSlashes path n) = some name := by
    induction n with
    | zero => exact hname
    | succ n ih => rw [withSlashes, Path.lastName?_append_separator, ih]
  rw [FileSystem.nameOf, hlast]

theorem entries_withSlashes {entries : List (String × FileNode)}
    (h : fs.entries path = .ok entries) {n : Nat}
    (hsize : path.utf8ByteSize + n ≤ FileSystem.pathLimit) :
    fs.entries (withSlashes path n) = .ok entries := by
  induction n with
  | zero => exact h
  | succ n ih =>
      have hentries := ih (by omega)
      have hcheck := FileSystem.checkPath_eq_ok_iff.mp (FileSystem.checkPath_of_entries hentries)
      refine FileSystem.entries_append_separator hentries
        (FileSystem.checkPath_eq_ok_iff.mpr ⟨?_, ?_⟩)
      · exact FileSystem.checkText_append hcheck.1 (by decide)
      · rw [← withSlashes, utf8ByteSize_withSlashes]
        exact hsize

/-- A directory and, behind it, an entity file that breaks off. -/
def holdEntries : List (String × FileNode) :=
  [("bulkhead", .directory []), ("z.json", .file "\x7b".toUTF8)]

def holdFiles : FileSystem where
  root := .directory [("hold", .directory holdEntries)]
  workingDirectory := []

section Hold

variable {path : String} (hlist : holdFiles.entries path = .ok holdEntries)
  (hsize : path.utf8ByteSize = 4089) (hjoin : ∀ name, Path.join path name = path ++ name)

/-- Entity files are found behind the directory only. -/
theorem eq_of_packageFile_holdEntries {location : Location} {role : FileRole}
    (h : holdFiles.PackageFile path holdEntries location role) : location = ["z.json"] := by
  cases h with
  | @mk up last node role hat hnode hlink hrole =>
      generalize up ++ [last] = location at hat ⊢
      cases location with
      | nil => exact absurd (Option.some.inj hat).symm (hnode holdEntries)
      | cons first rest =>
          obtain ⟨_, child, hentries, hchild, hat⟩ := FileNode.at?_cons_eq_some_iff.mp hat
          obtain rfl := FileNode.directory.inj hentries
          simp only [holdEntries, OrderedMap.lookup_cons_ite] at hchild
          split at hchild
          · obtain rfl := Option.some.inj hchild
            cases rest with
            | nil => exact absurd (Option.some.inj hat).symm (hnode [])
            | cons next more => exact nomatch hat
          · split at hchild
            · next hfirst =>
              obtain rfl := Option.some.inj hchild
              cases rest with
              | nil => rw [hfirst]
              | cons next more => exact nomatch hat
            · exact nomatch hchild

include hlist hsize hjoin

/-- The file is the only one of the package, and it breaks off. -/
theorem firstFault_holdFiles :
    FirstFault (holdFiles.FileFault path) (.json (Path.joinAll path ["z.json"]) .truncated) := by
  have hname : IsEntryName "z.json" := by decide
  have hlookup : holdEntries.lookup "z.json" = some (.file "\x7b".toUTF8) := by rfl
  have htext := (FileSystem.checkPath_eq_ok_iff.mp (FileSystem.checkPath_of_entries hlist)).1
  have hcheck : FileSystem.checkPath (Path.join path "z.json") = .ok () := by
    have hsize' : "z.json".utf8ByteSize = 6 := by rfl
    -- 4089 bytes and six more are just within the limit
    rw [hjoin, FileSystem.checkPath_of_checkText (FileSystem.checkText_append htext (by decide)),
      String.utf8ByteSize_append, hsize, hsize', FileSystem.pathLimit]
    rfl
  have hread : holdFiles.readText (Path.join path "z.json") = .ok "\x7b" := by
    rw [FileSystem.readText_join hlist hname hlookup, hcheck]
    have htext : FileSystem.textOf (.file "\x7b".toUTF8) = .ok "\x7b" := by decide +kernel
    exact htext
  have hparse : Json.ofText "\x7b" = .error .truncated := by
    have h : (Json.ofText "\x7b").map (fun _ => ()) = .error .truncated := by decide +kernel
    exact Fallible.map_eq_error_iff.mp h
  have hfile : holdFiles.PackageFile path holdEntries ["z.json"] .definition :=
    .mk [] "z.json" (by rfl) (fun _ h => FileNode.noConfusion h)
      (FileSystem.isDirectory_join hlist hname hlookup) (by decide)
  refine ⟨["z.json"], .mk hlist hfile (.definition hread hparse), ?_⟩
  rintro location' error' ⟨hstart, hother, -⟩
  obtain rfl := Except.ok.inj (hstart.symm.trans hlist)
  exact .inl (eq_of_packageFile_holdEntries hother).symm

/-- The directory cannot be listed, and it comes first. -/
theorem read_holdFiles (hname : holdFiles.nameOf path = .ok "hold") :
    SourceTree.read holdFiles path = .error (.access (Path.joinAll path ["bulkhead"]) .other) := by
  have htext := (FileSystem.checkPath_eq_ok_iff.mp (FileSystem.checkPath_of_entries hlist)).1
  have hcheck : FileSystem.checkPath (Path.join path "bulkhead") = .error .other := by
    have hsize' : "bulkhead".utf8ByteSize = 8 := by rfl
    -- 4089 bytes and eight more are not
    rw [hjoin, FileSystem.checkPath_of_checkText (FileSystem.checkText_append htext (by decide)),
      String.utf8ByteSize_append, hsize, hsize', FileSystem.pathLimit]
    rfl
  rw [SourceTree.read_of_sorted hname hlist (by decide), holdEntries, SourceTree.readEntries,
    SourceTree.readNode, hcheck]
  rfl

end Hold

/-- A path to the directory that can just be extended by the name of the file, but not by that of
the directory. -/
def holdPath : String := withSlashes "hold" 4085

/-- A directory whose path is too long to be listed is reported, and the one file that cannot be
read is not. -/
theorem unlisted_directory_hides_fault :
    holdFiles.WellNamed ∧
      FirstFault (holdFiles.FileFault holdPath)
        (.json (Path.joinAll holdPath ["z.json"]) .truncated) ∧
      standard.load holdFiles 1 holdPath =
        .error (.read (.access (Path.joinAll holdPath ["bulkhead"]) .other)) := by
  have hsize : holdPath.utf8ByteSize = 4089 := by
    have hhold : "hold".utf8ByteSize = 4 := by rfl
    rw [holdPath, utf8ByteSize_withSlashes, hhold]
  have hlist : holdFiles.entries holdPath = .ok holdEntries := by
    refine entries_withSlashes (by rfl) ?_
    rw [← utf8ByteSize_withSlashes, ← holdPath, hsize, FileSystem.pathLimit]
    decide
  have hjoin : ∀ name, Path.join holdPath name = holdPath ++ name := fun name => by
    rw [holdPath, withSlashes, Path.join_append_separator]
  have hname : holdFiles.nameOf holdPath = .ok "hold" := nameOf_withSlashes (by decide) 4085
  refine ⟨by decide +kernel, firstFault_holdFiles hlist hsize hjoin, ?_⟩
  exact (load_of_read_eq_error (read_holdFiles hlist hsize hjoin hname) standard 1).1

end Loader

end BlueprintPackages
