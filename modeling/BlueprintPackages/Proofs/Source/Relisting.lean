import BlueprintPackages.Proofs.Files.Resemblance
import BlueprintPackages.Proofs.Source.Reading
import BlueprintPackages.Proofs.Tree.Shadowing

/-!
# Directories listed in another order

The entries of a directory come in whatever order they are listed in. To relist a tree of files is
to choose an order for each of its directories, each by itself (`FileNode.relist`). As long as no
directory has a name twice, there is the same at every location as before, relisted
(`FileNode.at?_relist`), so paths lead where they led, to the same texts. Only the entries of a
directory are listed otherwise, and reading sorts their outcomes by name. So whatever is read of a
relisted tree is what is read of the tree itself, and so is what is loaded (`Loader.load_relist`).
-/

namespace BlueprintPackages

/-- An order of the entries of each directory, the directory being told by its location. -/
abbrev Listing := Location → List (String × FileNode) → List (String × FileNode)

namespace FileNode

/-! ## Relisting -/

mutual

/-- The same tree with every directory listed as chosen; the tree stands at the given location. -/
def relist (choose : Listing) (location : Location) : FileNode → FileNode
  | directory entries => directory (choose location (relistEntries choose location entries))
  | file bytes => file bytes
  | link target => link target
termination_by structural node => node

/-- The entries of the directory at the given location in their old order, each relisted. -/
def relistEntries (choose : Listing) (location : Location) :
    List (String × FileNode) → List (String × FileNode)
  | [] => []
  | (name, node) :: rest =>
    (name, relist choose (location ++ [name]) node) :: relistEntries choose location rest
termination_by structural entries => entries

end

variable {choose : Listing} {entries : List (String × FileNode)} {node : FileNode}

theorem relistEntries_eq_map (choose : Listing) (location : Location)
    (entries : List (String × FileNode)) :
    relistEntries choose location entries =
      entries.map fun e => (e.1, relist choose (location ++ [e.1]) e.2) := by
  induction entries with
  | nil => rfl
  | cons e rest ih =>
      obtain ⟨name, node⟩ := e
      rw [relistEntries, ih]
      rfl

theorem map_fst_relistEntries (location : Location) :
    (relistEntries choose location entries).map Prod.fst = entries.map Prod.fst := by
  rw [relistEntries_eq_map, List.map_map]
  rfl

theorem lookup_relistEntries (location : Location) (name : String) :
    (relistEntries choose location entries).lookup name =
      (entries.lookup name).map (relist choose (location ++ [name])) := by
  rw [relistEntries_eq_map]
  exact OrderedMap.lookup_map (fun name => relist choose (location ++ [name])) entries name

section Permuted

variable (hchoose : ∀ location entries, (choose location entries).Perm entries)

include hchoose

/-- A relisted directory has the same names, and under each the same entry, relisted. -/
theorem lookup_relisted (h : (directory entries).DistinctNames) (location : Location)
    (name : String) :
    (choose location (relistEntries choose location entries)).lookup name =
      (entries.lookup name).map (relist choose (location ++ [name])) := by
  have hnodup : ((relistEntries choose location entries).map Prod.fst).Nodup := by
    rw [map_fst_relistEntries]
    exact h.entries_good
  rw [OrderedMap.lookup_eq_of_perm (hchoose location _) hnodup, lookup_relistEntries]

theorem at?_relist (h : node.DistinctNames) (here location : Location) :
    (node.relist choose here).at? location =
      (node.at? location).map (relist choose (here ++ location)) := by
  induction location generalizing node here with
  | nil => rw [at?_nil, at?_nil, List.append_nil, Option.map_some]
  | cons name rest ih =>
      cases node with
      | file bytes => rfl
      | link target => rfl
      | directory entries =>
          rw [relist, at?_directory_cons, at?_directory_cons, lookup_relisted hchoose h]
          cases hlookup : entries.lookup name with
          | none => rfl
          | some child =>
              have hchild : child.DistinctNames := h.of_mem (OrderedMap.mem_of_lookup hlookup)
              simp only [Option.map_some, Option.bind_some, ih hchild, List.append_assoc,
                List.singleton_append]

end Permuted

end FileNode

namespace FileSystem

/-- The same files with every directory listed as chosen. -/
def relist (choose : Listing) (fs : FileSystem) : FileSystem :=
  { fs with root := fs.root.relist choose [] }

variable {choose : Listing} (hchoose : ∀ location entries, (choose location entries).Perm entries)
  {fs : FileSystem} (hdistinct : fs.root.DistinctNames)

include hchoose hdistinct

theorem resembles_relist : fs.Resembles (FileNode.relist choose) (fs.relist choose) where
  workingDirectory := rfl
  at? location := by rw [relist, FileNode.at?_relist hchoose hdistinct, List.nil_append]
  file _ bytes := ⟨bytes, rfl⟩
  link _ _ := rfl
  directory _ _ := ⟨_, rfl⟩

theorem readText_relist (path : String) : (fs.relist choose).readText path = fs.readText path :=
  (resembles_relist hchoose hdistinct).readText_eq fun _ _ _ _ => rfl

end FileSystem

/-! ## Reading a relisted tree -/

namespace SourceTree

variable {choose : Listing} (hchoose : ∀ location entries, (choose location entries).Perm entries)
  {fs : FileSystem} (hdistinct : fs.root.DistinctNames)

/-- The outcomes of entries with different names count in one order only. -/
theorem assemble_eq_of_perm {name path : String} {outcomes listed : List Outcome}
    (hperm : listed.Perm outcomes) (h : (outcomes.map Prod.fst).Nodup) :
    assemble name path listed = assemble name path outcomes := by
  rw [assemble, assemble]
  exact congrArg (fun os => (collect os).map (ofContributions name path))
    (sortByName_eq_of_perm hperm h)

include hchoose

/-- A directory is read to the same if all its entries are. -/
theorem assemble_relisted {name path : String} {entries : List (String × FileNode)}
    (hentries : (FileNode.directory entries).DistinctNames) (location : Location)
    (hread : ∀ e ∈ entries, ∀ here path,
      readNode (fs.relist choose) e.1 path (e.2.relist choose here) = readNode fs e.1 path e.2) :
    assemble name path (readEntries (fs.relist choose) path
        (choose location (FileNode.relistEntries choose location entries))) =
      assemble name path (readEntries fs path entries) := by
  have hsame : readEntries (fs.relist choose) path
      (FileNode.relistEntries choose location entries) = readEntries fs path entries := by
    rw [FileNode.relistEntries_eq_map, readEntries_eq_map, readEntries_eq_map, List.map_map]
    exact List.map_congr_left fun e he => Prod.ext rfl (hread e he _ _)
  -- only the order is another, and it is lost where the outcomes are sorted by their names
  rw [← hsame]
  refine assemble_eq_of_perm ?_ ?_
  · rw [readEntries_eq_map, readEntries_eq_map]
    exact (hchoose location _).map _
  · rw [hsame, map_fst_readEntries]
    exact hentries.entries_good

include hdistinct

theorem readNode_relist {node : FileNode} (h : node.DistinctNames) (here : Location)
    (name path : String) :
    readNode (fs.relist choose) name path (node.relist choose here) =
      readNode fs name path node := by
  induction node using FileNode.induction generalizing here name path with
  | file bytes => rfl
  | link target =>
      rw [FileNode.relist, readNode, readNode,
        (FileSystem.resembles_relist hchoose hdistinct).isDirectory_eq,
        FileSystem.readText_relist hchoose hdistinct]
  | directory entries ih =>
      rw [FileNode.relist, readNode, readNode, assemble_relisted hchoose h here]
      exact fun e he here path => ih e he (h.of_mem he) here e.1 path

/-- The sources that are read do not depend on how directories are listed. -/
theorem read_relist (path : String) : read (fs.relist choose) path = read fs path := by
  have hresembles := FileSystem.resembles_relist hchoose hdistinct
  rw [read, read, hresembles.nameOf_eq]
  obtain ⟨error, hentries, hentries'⟩ |
    ⟨location, entries, entries', hat, hchange, hentries, hentries'⟩ := hresembles.entries_eq path
  · rw [hentries, hentries']
    rfl
  · obtain rfl := FileNode.directory.inj hchange
    have hgood : (FileNode.directory entries).DistinctNames := hdistinct.at? hat
    have hassemble : ∀ name, assemble name path (readEntries (fs.relist choose) path
        (choose location (FileNode.relistEntries choose location entries))) =
          assemble name path (readEntries fs path entries) := fun name =>
      assemble_relisted hchoose hgood location fun e he here path =>
        readNode_relist hchoose hdistinct (hgood.of_mem he) here e.1 path
    simp only [hentries, hentries', ReadError.ofAccess, bind, Except.bind, hassemble]

end SourceTree

/-! ## Loading -/

namespace Loader

/-- However the directories of a file system are listed, each by itself, a load comes to the same:
the same tree, or the same error. -/
theorem load_relist (l : Loader) {fs : FileSystem} (hdistinct : fs.root.DistinctNames)
    {choose : Listing} (hchoose : ∀ location entries, (choose location entries).Perm entries)
    (stamp : Nat) (path : String) :
    l.load (fs.relist choose) stamp path = l.load fs stamp path ∧
      l.loadSystem (fs.relist choose) stamp path = l.loadSystem fs stamp path := by
  have hread : SourceTree.read (fs.relist choose) path = SourceTree.read fs path :=
    SourceTree.read_relist hchoose hdistinct path
  constructor
  · rw [load, load, loadWith, loadWith, hread]
  · rw [loadSystem, loadSystem, loadWith, loadWith, hread]

/-- Two directories listed backwards are loaded to the tree that they are loaded to otherwise. -/
theorem load_relist_backwards :
    let backwards : Listing := fun _ entries => entries.reverse
    namesakeFiles.root.DistinctNames ∧
      (∀ location entries, (backwards location entries).Perm entries) ∧
      ((namesakeFiles.relist backwards).entries "marine").map (fun es => es.map Prod.fst) =
        .ok ["stern", "bow"] ∧
      ∃ t, standard.load (namesakeFiles.relist backwards) 1 "marine" = .ok t ∧
        standard.load namesakeFiles 1 "marine" = .ok t := by
  intro backwards
  have hbackwards : ∀ location entries, (backwards location entries).Perm entries :=
    fun _ entries => entries.reverse_perm
  have hdistinct : namesakeFiles.root.DistinctNames := by decide +kernel
  obtain ⟨t, -, -, hload, -⟩ := exists_load_namesakeFiles
  refine ⟨hdistinct, hbackwards, by rfl, t, ?_, hload⟩
  rw [(load_relist standard hdistinct hbackwards 1 "marine").1, hload]

end Loader

end BlueprintPackages
