import BlueprintPackages.Proofs.Files.Opening
import BlueprintPackages.Proofs.Files.Resemblance

/-!
# Another file in place of one

To edit a tree of files is to give each file new bytes, which may depend on its location. The shape
of the tree stays what it was, so an edited tree resembles the tree (`resembles_edit`), with the
same names in every directory (`WellNamed.edit`). Where only one file is replaced, whoever asks for
the text at a path is told something else only if the path leads to this very file, be it through
links (`readText_replaceFile_of_locate`, `readText_replaceFile_of_ne`).
-/

namespace BlueprintPackages

namespace FileNode

/-! ## Editing -/

mutual

/-- The same tree with the bytes of every file changed; the tree stands at the given location. -/
def edit (change : Location → ByteArray → ByteArray) (location : Location) : FileNode → FileNode
  | directory entries => directory (editEntries change location entries)
  | file bytes => file (change location bytes)
  | link target => link target
termination_by structural node => node

/-- The entries of the directory at the given location, each edited. -/
def editEntries (change : Location → ByteArray → ByteArray) (location : Location) :
    List (String × FileNode) → List (String × FileNode)
  | [] => []
  | (name, node) :: rest =>
    (name, edit change (location ++ [name]) node) :: editEntries change location rest
termination_by structural entries => entries

end

variable {change : Location → ByteArray → ByteArray} {entries : List (String × FileNode)}
  {node : FileNode}

theorem editEntries_eq_map (change : Location → ByteArray → ByteArray) (location : Location)
    (entries : List (String × FileNode)) :
    editEntries change location entries =
      entries.map fun e => (e.1, edit change (location ++ [e.1]) e.2) := by
  induction entries with
  | nil => rfl
  | cons e rest ih =>
      obtain ⟨name, node⟩ := e
      rw [editEntries, ih]
      rfl

theorem map_fst_editEntries (change : Location → ByteArray → ByteArray) (location : Location)
    (entries : List (String × FileNode)) :
    (editEntries change location entries).map Prod.fst = entries.map Prod.fst := by
  rw [editEntries_eq_map, List.map_map]
  rfl

theorem lookup_editEntries (location : Location) (name : String) :
    (editEntries change location entries).lookup name =
      (entries.lookup name).map (edit change (location ++ [name])) := by
  rw [editEntries_eq_map]
  exact OrderedMap.lookup_map (fun name => edit change (location ++ [name])) entries name

theorem at?_edit (here location : Location) :
    (node.edit change here).at? location =
      (node.at? location).map (edit change (here ++ location)) := by
  induction location generalizing node here with
  | nil => rw [at?_nil, at?_nil, List.append_nil, Option.map_some]
  | cons name rest ih =>
      cases node with
      | file bytes => rfl
      | link target => rfl
      | directory entries =>
          rw [edit, at?_directory_cons, at?_directory_cons, lookup_editEntries]
          cases entries.lookup name with
          | none => rfl
          | some child =>
              simp only [Option.map_some, Option.bind_some, ih, List.append_assoc,
                List.singleton_append]

/-- What is so of the names in every directory stays so. -/
theorem Everywhere.edit {good : List (String × FileNode) → Prop} (h : node.Everywhere good)
    (hgood : ∀ entries entries', entries'.map Prod.fst = entries.map Prod.fst →
      good entries → good entries') (location : Location) :
    (node.edit change location).Everywhere good := by
  induction node using FileNode.induction generalizing location with
  | file bytes => exact .file _
  | link target => exact .link target
  | directory entries ih =>
      refine .directory ?_ ?_
      · exact hgood _ _ (map_fst_editEntries change location entries) h.entries_good
      · rw [editEntries_eq_map, List.forall_mem_map]
        exact fun e he => ih e he (h.of_mem he) _

end FileNode

namespace FileSystem

variable {fs : FileSystem} {change : Location → ByteArray → ByteArray}

/-- The same files with the bytes of each changed. -/
def edit (change : Location → ByteArray → ByteArray) (fs : FileSystem) : FileSystem :=
  { fs with root := fs.root.edit change [] }

theorem resembles_edit (change : Location → ByteArray → ByteArray) (fs : FileSystem) :
    fs.Resembles (FileNode.edit change) (fs.edit change) where
  workingDirectory := rfl
  at? location := by rw [edit, FileNode.at?_edit, List.nil_append]
  file _ bytes := ⟨_, rfl⟩
  link _ _ := rfl
  directory _ _ := ⟨_, rfl⟩

theorem WellNamed.edit (hfs : fs.WellNamed) (change : Location → ByteArray → ByteArray) :
    (fs.edit change).WellNamed where
  distinct := FileNode.Everywhere.edit hfs.distinct (fun _ _ hnames h => hnames ▸ h) []
  proper := by
    refine FileNode.Everywhere.edit hfs.proper ?_ []
    intro entries entries' hnames h e he
    have hmem : e.1 ∈ entries.map Prod.fst := hnames ▸ List.mem_map_of_mem he
    obtain ⟨other, hother, hsame⟩ := List.mem_map.mp hmem
    exact hsame ▸ h other hother

/-! ## One file -/

/-- The change of the bytes at one location. -/
def replacing (file : Location) (bytes : ByteArray) (location : Location) (old : ByteArray) :
    ByteArray := if location = file then bytes else old

/-- The same files but for the one at a location, in place of which there is another. -/
def replaceFile (fs : FileSystem) (file : Location) (bytes : ByteArray) : FileSystem :=
  fs.edit (replacing file bytes)

variable {file : Location} {bytes old : ByteArray}

/-- A text is read back from its own bytes. -/
theorem textOf_toUTF8 (text : String) : textOf (.file text.toUTF8) = .ok text := by
  have hread : String.fromUTF8? text.toUTF8 = some text := dif_pos text.isValidUTF8
  rw [textOf, hread]

theorem readText_of_locate {path : String} (hfile : fs.root.at? file = some (.file old))
    (hlocate : fs.locate path = .ok file) : fs.readText path = textOf (.file old) := by
  have hnode : fs.node path = .ok (.file old) := node_eq_ok_iff.mpr ⟨file, hlocate, hfile⟩
  rw [readText, hnode]
  rfl

/-- A path leads to the new text if it leads to the file. -/
theorem readText_replaceFile_of_locate {path : String}
    (hfile : fs.root.at? file = some (.file old)) (hlocate : fs.locate path = .ok file) :
    (fs.replaceFile file bytes).readText path = textOf (.file bytes) := by
  have hresembles := resembles_edit (replacing file bytes) fs
  refine readText_of_locate ?_ ((hresembles.locate_eq path).trans hlocate)
  rw [replaceFile, hresembles.at?, hfile, Option.map_some, FileNode.edit, replacing, if_pos rfl]

/-- Any other path leads to the text that it led to before. -/
theorem readText_replaceFile_of_ne {path : String} (hlocate : fs.locate path ≠ .ok file) :
    (fs.replaceFile file bytes).readText path = fs.readText path := by
  refine (resembles_edit _ fs).readText_eq fun location old hfound _ => ?_
  have hne : location ≠ file := fun hsame => hlocate (hsame ▸ hfound)
  rw [FileNode.edit, replacing, if_neg hne]

end FileSystem

end BlueprintPackages
