import BlueprintPackages.Proofs.Files.Walking

/-!
# Trees of files of one shape

A file system `Resembles` another if at every location there is what is in the other, changed in a
way that leaves directories directories, files files and links just as they are. Then all walks come
to the same locations (`walkLinks_eq`), so that a path leads to the same directories and files, each
changed for the location where it stands (`Resembles.node_eq`), and names and what counts as a
directory are the same.
-/

namespace BlueprintPackages

/-- What stands at a location, changed for this location. -/
abbrev NodeChange := Location → FileNode → FileNode

/-- At every location of `fs'` there is what is in `fs`, changed but for its kind. -/
structure FileSystem.Resembles (change : NodeChange) (fs fs' : FileSystem) : Prop where
  workingDirectory : fs'.workingDirectory = fs.workingDirectory
  at? : ∀ location, fs'.root.at? location = (fs.root.at? location).map (change location)
  file : ∀ location bytes, ∃ bytes', change location (.file bytes) = .file bytes'
  link : ∀ location target, change location (.link target) = .link target
  directory : ∀ location entries, ∃ entries',
    change location (.directory entries) = .directory entries'

namespace FileSystem.Resembles

variable {change : NodeChange} {fs fs' : FileSystem} (h : fs.Resembles change fs')

include h

/-- A directory has the same names, and what is under each is changed for its location. -/
theorem lookup {location : Location} {entries entries' : List (String × FileNode)}
    (hat : fs.root.at? location = some (.directory entries))
    (hchange : change location (.directory entries) = .directory entries') (name : String) :
    entries'.lookup name = (entries.lookup name).map (change (location ++ [name])) := by
  have hat' : fs'.root.at? location = some (.directory entries') := by
    rw [h.at?, hat, Option.map_some, hchange]
  rw [← FileNode.at?_concat hat', ← FileNode.at?_concat hat, h.at?]

theorem walk_eq (allowed : Location → Bool)
    (follow : Location → String → List Step → Except AccessError Location) (location : Location)
    (steps : List Step) :
    fs'.walk allowed follow location steps = fs.walk allowed follow location steps := by
  induction steps generalizing location with
  | nil => rfl
  | cons step rest ih =>
      rw [walk, walk, h.at?]
      -- a change keeps every node what it is, so both walks come to the same case
      cases hat : fs.root.at? location with
      | none => rfl
      | some node =>
          rw [Option.map_some]
          cases node with
          | file bytes =>
              obtain ⟨bytes', hchange⟩ := h.file location bytes
              rw [hchange]
          | link target => rw [h.link]
          | directory entries =>
              obtain ⟨entries', hchange⟩ := h.directory location entries
              rw [hchange]
              cases step with
              | stay => exact ih location
              | up => exact ih location.dropLast
              | down name =>
                  simp only [h.lookup hat hchange]
                  cases entries.lookup name with
                  | none => rfl
                  | some found =>
                      cases found with
                      | file bytes =>
                          obtain ⟨bytes', hfile⟩ := h.file (location ++ [name]) bytes
                          simp only [Option.map_some, hfile, ih]
                      | link target => simp only [Option.map_some, h.link]
                      | directory below =>
                          obtain ⟨below', hbelow⟩ := h.directory (location ++ [name]) below
                          simp only [Option.map_some, hbelow, ih]

theorem walkLinks_eq (allowed : Location → Bool) (links : Nat) (location : Location)
    (steps : List Step) :
    fs'.walkLinks allowed links location steps = fs.walkLinks allowed links location steps := by
  induction links generalizing location steps with
  | zero => exact h.walk_eq allowed _ location steps
  | succ links ih =>
      rw [walkLinks, walkLinks, h.walk_eq]
      simp only [ih]

theorem locate_eq (path : String) : fs'.locate path = fs.locate path := by
  simp only [locate, walkFrom, h.walkLinks_eq, h.workingDirectory]

theorem nameOf_eq (path : String) : fs'.nameOf path = fs.nameOf path := by
  simp only [nameOf, canonical, h.walkLinks_eq, h.workingDirectory]

/-- What a path leads to is the same, but changed for the location where it stands. -/
theorem node_eq (path : String) :
    (∃ error, fs.node path = .error error ∧ fs'.node path = .error error) ∨
      ∃ location node, fs.locate path = .ok location ∧ fs.root.at? location = some node ∧
        fs.node path = .ok node ∧ fs'.node path = .ok (change location node) := by
  rw [node, node, h.locate_eq]
  cases fs.locate path with
  | error error => exact .inl ⟨error, rfl, rfl⟩
  | ok location =>
      simp only [bind, Except.bind, h.at?]
      cases hat : fs.root.at? location with
      | none => exact .inl ⟨_, rfl, rfl⟩
      | some node => exact .inr ⟨location, node, rfl, hat, rfl, rfl⟩

theorem isDirectory_eq (path : String) : fs'.isDirectory path = fs.isDirectory path := by
  rw [isDirectory, isDirectory]
  obtain ⟨error, hnode, hnode'⟩ | ⟨location, node, -, -, hnode, hnode'⟩ := h.node_eq path
  · rw [hnode, hnode']
  · rw [hnode, hnode']
    cases node with
    | file bytes =>
        obtain ⟨bytes', hchange⟩ := h.file location bytes
        rw [hchange]
    | link target => rw [h.link]
    | directory entries =>
        obtain ⟨entries', hchange⟩ := h.directory location entries
        rw [hchange]

/-- A path to a file that is not changed leads to the same text. -/
theorem readText_eq {path : String}
    (hsame : ∀ location bytes, fs.locate path = .ok location →
      fs.root.at? location = some (.file bytes) → change location (.file bytes) = .file bytes) :
    fs'.readText path = fs.readText path := by
  rw [readText, readText]
  obtain ⟨error, hnode, hnode'⟩ | ⟨location, node, hlocate, hat, hnode, hnode'⟩ := h.node_eq path
  · rw [hnode, hnode']
  · rw [hnode, hnode']
    cases node with
    | file bytes => rw [hsame location bytes hlocate hat]
    | link target => rw [h.link]
    | directory entries =>
        obtain ⟨entries', hchange⟩ := h.directory location entries
        rw [hchange]
        rfl

/-- A directory is listed in both or in neither, in the second as changed. -/
theorem entries_eq (path : String) :
    (∃ error, fs.entries path = .error error ∧ fs'.entries path = .error error) ∨
      ∃ location entries entries', fs.root.at? location = some (.directory entries) ∧
        change location (.directory entries) = .directory entries' ∧
        fs.entries path = .ok entries ∧ fs'.entries path = .ok entries' := by
  rw [entries, entries]
  obtain ⟨error, hnode, hnode'⟩ | ⟨location, node, -, hat, hnode, hnode'⟩ := h.node_eq path
  · exact .inl ⟨error, by rw [hnode]; rfl, by rw [hnode']; rfl⟩
  · rw [hnode, hnode']
    cases node with
    | file bytes =>
        obtain ⟨bytes', hchange⟩ := h.file location bytes
        exact .inl ⟨.notADirectory, rfl, by rw [hchange]; rfl⟩
    | link target => exact .inl ⟨.notADirectory, rfl, by rw [h.link]; rfl⟩
    | directory entries =>
        obtain ⟨entries', hchange⟩ := h.directory location entries
        exact .inr ⟨location, entries, entries', hat, hchange, rfl, by rw [hchange]; rfl⟩

end FileSystem.Resembles

end BlueprintPackages
