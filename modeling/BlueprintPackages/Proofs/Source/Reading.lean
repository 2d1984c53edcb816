import BlueprintPackages.Proofs.Fallible
import BlueprintPackages.Proofs.Files.Entries
import BlueprintPackages.Source.Reading

/-!
# Reading a directory entry by entry

Entries are read one by one and the outcomes sorted by name afterwards. That is the same as reading
the entries in the order of their names, up to the first that fails (`readDirectory_eq_mapM`). Names
that differ have one order only, so it does not matter how they were listed
(`sortByName_eq_of_perm`), and where they are listed in order already, sorting changes nothing
(`read_of_sorted`).
-/

namespace BlueprintPackages

namespace ReadError

variable {α : Type} {path : String} {a : α} {error : ReadError}

theorem ofAccess_eq_ok_iff {x : Except AccessError α} : ofAccess path x = .ok a ↔ x = .ok a := by
  cases x with
  | error e => simp [ofAccess]
  | ok value => simp [ofAccess]

theorem ofAccess_eq_error_iff {x : Except AccessError α} :
    ofAccess path x = .error error ↔ ∃ e, x = .error e ∧ error = .access path e := by
  cases x with
  | error e => simp [ofAccess, eq_comm]
  | ok value => simp [ofAccess]

theorem ofFault_eq_error_iff {x : Except Fault α} :
    ofFault path x = .error error ↔ ∃ fault, x = .error fault ∧ error = .json path fault := by
  cases x with
  | error fault => simp [ofFault, eq_comm]
  | ok value => simp [ofFault]

theorem ofFault_eq_ok_iff {x : Except Fault α} : ofFault path x = .ok a ↔ x = .ok a := by
  cases x with
  | error fault => simp [ofFault]
  | ok value => simp [ofFault]

theorem ofField_eq_error_iff {x : Except FieldError α} :
    ofField x = .error error ↔ ∃ e, x = .error e ∧ error = .field e := by
  cases x with
  | error e => simp [ofField, eq_comm]
  | ok value => simp [ofField]

end ReadError

namespace SourceTree

variable {fs : FileSystem} {name path : String} {entries : List (String × FileNode)}

/-! ## The order of names -/

section Sorting

variable {α : Type} {pairs : List (String × α)}

/-- Pairs in the order of their names. -/
def sortByName (pairs : List (String × α)) : List (String × α) :=
  pairs.mergeSort fun a b => decide (a.1 ≤ b.1)

theorem sortByName_perm (pairs : List (String × α)) : (sortByName pairs).Perm pairs :=
  List.mergeSort_perm _ _

@[simp] theorem mem_sortByName_iff {pair : String × α} : pair ∈ sortByName pairs ↔ pair ∈ pairs :=
  (sortByName_perm pairs).mem_iff

/-- Different names stand in strict order. -/
theorem sortByName_pairwise (h : (pairs.map Prod.fst).Nodup) :
    (sortByName pairs).Pairwise fun a b => a.1 < b.1 := by
  have hle : (sortByName pairs).Pairwise fun a b => a.1 ≤ b.1 := by
    have hsorted : (sortByName pairs).Pairwise fun a b => decide (a.1 ≤ b.1) = true :=
      List.pairwise_mergeSort
        (fun a b c hab hbc =>
          decide_eq_true ((of_decide_eq_true hab).trans (of_decide_eq_true hbc)))
        (fun a b => by simpa using le_total a.1 b.1) pairs
    exact hsorted.imp fun hab => of_decide_eq_true hab
  have hne : (sortByName pairs).Pairwise fun a b => a.1 ≠ b.1 :=
    List.pairwise_map.mp (((sortByName_perm pairs).map Prod.fst).nodup_iff.mpr h)
  exact (List.pairwise_and_iff.mpr ⟨hle, hne⟩).imp fun hab => lt_of_le_of_ne hab.1 hab.2

/-- Pairs with different names come into the same order from any other. -/
theorem sortByName_eq_of_perm {listed : List (String × α)} (hperm : listed.Perm pairs)
    (h : (pairs.map Prod.fst).Nodup) : sortByName listed = sortByName pairs := by
  have hlisted : (listed.map Prod.fst).Nodup := (hperm.map Prod.fst).nodup_iff.mpr h
  refine List.Perm.eq_of_pairwise (fun a b _ _ hab hba => absurd hba (lt_asymm hab))
    (sortByName_pairwise hlisted) (sortByName_pairwise h) ?_
  exact (sortByName_perm listed).trans (hperm.trans (sortByName_perm pairs).symm)

/-- What is put in place of the values does not matter to the order. -/
theorem sortByName_map {β : Type} (f : String × α → β) (pairs : List (String × α)) :
    sortByName (pairs.map fun e => (e.1, f e)) = (sortByName pairs).map fun e => (e.1, f e) := by
  rw [sortByName, sortByName, ← List.map_mergeSort]
  exact fun _ _ _ _ => rfl

/-- Pairs that are left out leave the others in their order. -/
theorem sortByName_filter (h : (pairs.map Prod.fst).Nodup) (keep : String × α → Bool) :
    sortByName (pairs.filter keep) = (sortByName pairs).filter keep := by
  have hkept : ((pairs.filter keep).map Prod.fst).Nodup := h.sublist (List.filter_sublist.map _)
  refine List.Perm.eq_of_pairwise (fun a b _ _ hab hba => absurd hba (lt_asymm hab))
    (sortByName_pairwise hkept) ((sortByName_pairwise h).filter keep) ?_
  exact (sortByName_perm _).trans ((sortByName_perm pairs).symm.filter keep)

end Sorting

/-! ## Entries in order -/

/-- Reads one entry of the directory that has the given path. -/
def readEntry (fs : FileSystem) (path : String) (e : String × FileNode) :
    Except ReadError Contribution :=
  readNode fs e.1 (Path.join path e.1) e.2

theorem readEntries_eq_map (fs : FileSystem) (path : String) (entries : List (String × FileNode)) :
    readEntries fs path entries = entries.map fun e => (e.1, readEntry fs path e) := by
  induction entries with
  | nil => rfl
  | cons e rest ih =>
      obtain ⟨name, node⟩ := e
      rw [readEntries, List.map_cons, ih]
      rfl

theorem map_fst_readEntries (fs : FileSystem) (path : String)
    (entries : List (String × FileNode)) :
    (readEntries fs path entries).map Prod.fst = entries.map Prod.fst := by
  rw [readEntries_eq_map, List.map_map]
  rfl

theorem sortOutcomes_readEntries (fs : FileSystem) (path : String)
    (entries : List (String × FileNode)) :
    sortOutcomes (readEntries fs path entries) = readEntries fs path (sortByName entries) := by
  rw [readEntries_eq_map, readEntries_eq_map, sortOutcomes, sortByName, ← List.map_mergeSort]
  exact fun _ _ _ _ => rfl

theorem collect_eq_mapM (outcomes : List Outcome) : collect outcomes = outcomes.mapM Prod.snd := by
  induction outcomes with
  | nil => rfl
  | cons outcome rest ih =>
      obtain ⟨name, outcome⟩ := outcome
      rw [collect, List.mapM_cons, ih]

/-- Reads a directory that has the given name, path and entries. -/
def readDirectory (fs : FileSystem) (name path : String) (entries : List (String × FileNode)) :
    Except ReadError SourceTree :=
  assemble name path (readEntries fs path entries)

/-- A directory is read entry by entry in the order of the names. -/
theorem readDirectory_eq_mapM (fs : FileSystem) (name path : String)
    (entries : List (String × FileNode)) :
    readDirectory fs name path entries =
      ((sortByName entries).mapM (readEntry fs path)).map (ofContributions name path) := by
  rw [readDirectory, assemble, sortOutcomes_readEntries, collect_eq_mapM, readEntries_eq_map,
    List.mapM_map]
  rfl

variable {t : SourceTree} {error : ReadError}

theorem readDirectory_eq_ok_iff :
    readDirectory fs name path entries = .ok t ↔
      ∃ contributions,
        List.Forall₂ (fun e c => readEntry fs path e = .ok c) (sortByName entries) contributions ∧
          ofContributions name path contributions = t := by
  rw [readDirectory_eq_mapM, Fallible.map_eq_ok_iff]
  simp only [Fallible.mapM_eq_ok_iff]

/-- A directory cannot be read just if one of its entries cannot, and then the first. -/
theorem readDirectory_eq_error_iff :
    readDirectory fs name path entries = .error error ↔
      ∃ before e after, sortByName entries = before ++ e :: after ∧
        (∀ b ∈ before, ∃ c, readEntry fs path b = .ok c) ∧ readEntry fs path e = .error error := by
  rw [readDirectory_eq_mapM, Fallible.map_eq_error_iff, Fallible.mapM_eq_error_iff]

theorem readEntry_directory (fs : FileSystem) (path name : String)
    (below : List (String × FileNode)) :
    readEntry fs path (name, .directory below) =
      (ReadError.ofAccess (Path.join path name) (FileSystem.checkPath (Path.join path name)) >>=
        fun _ => readDirectory fs name (Path.join path name) below).map .subpackage := by
  rw [readEntry, readNode]
  cases FileSystem.checkPath (Path.join path name) with
  | error error => rfl
  | ok _ =>
      simp only [ReadError.ofAccess, bind, Except.bind, readDirectory]
      cases assemble name (Path.join path name) (readEntries fs (Path.join path name) below) <;> rfl

theorem read_eq_ok_iff :
    read fs path = .ok t ↔
      ∃ name entries, fs.nameOf path = .ok name ∧ fs.entries path = .ok entries ∧
        readDirectory fs name path entries = .ok t := by
  simp only [read, Fallible.bind_eq_ok_iff, ReadError.ofAccess_eq_ok_iff]
  exact exists_congr fun name => by simp only [readDirectory, exists_and_left]

/-- A directory whose entries stand in order gives what they contribute one after the other. -/
theorem read_of_sorted (hname : fs.nameOf path = .ok name)
    (hentries : fs.entries path = .ok entries) (hsorted : (entries.map Prod.fst).Pairwise (· ≤ ·)) :
    read fs path = (collect (readEntries fs path entries)).map (ofContributions name path) := by
  have hsort : sortByName entries = entries :=
    List.mergeSort_of_pairwise ((List.pairwise_map.mp hsorted).imp fun hle => decide_eq_true hle)
  have hread : read fs path = assemble name path (readEntries fs path entries) := by
    rw [read, hname, hentries]
    rfl
  rw [hread, assemble, sortOutcomes_readEntries, hsort]

end SourceTree

end BlueprintPackages
