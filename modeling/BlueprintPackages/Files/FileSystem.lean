import BlueprintPackages.Files.Path
import BlueprintPackages.Error
import BlueprintPackages.OrderedMap

/-!
# Files, directories and links

A `FileSystem` is a tree of nodes and a working directory. The entries of a directory stand in some
order, which is the order in which they are listed. `FileSystem.locate` walks a path from the
working directory: every step needs a directory to start from, and a link is replaced by its target
wherever it stands, its last place included. At most `linkLimit` links are followed on one walk, so
a link that leads to itself is an error and not an endless walk.

What a walk finds is a location: the names from the root down, without links. There are limits on
the length of a path that is walked; `FileSystem.canonical` has its limit on the places it comes by
instead.

Every name is text, and whatever is there may be read. Names that are not UTF-8, and files and
directories without read permission, are not modelled.
-/

namespace BlueprintPackages

inductive FileNode
  | file (bytes : ByteArray)
  | directory (entries : List (String × FileNode))
  | link (target : String)

namespace FileNode

/-- The node that names lead down to from here, without following links. -/
def at? : FileNode → List String → Option FileNode
  | node, [] => some node
  | directory entries, name :: rest =>
    match entries.lookup name with
    | some node => node.at? rest
    | none => none
  | _, _ :: _ => none

/-- The node with the entries of the directory that names lead to changed; nothing happens if they
lead elsewhere. -/
def updateAt (change : List (String × FileNode) → List (String × FileNode)) :
    List String → FileNode → FileNode
  | [], directory entries => directory (change entries)
  | name :: rest, directory entries =>
    match entries.lookup name with
    | some node => directory (OrderedMap.setEntry name (updateAt change rest node) entries)
    | none => directory entries
  | _, node => node

end FileNode

/-- The names from the root down. -/
abbrev Location := List String

/-- The number of bytes of the path from the root to a location, with a slash before each name. -/
def Location.byteSize : Location → Nat
  | [] => 0
  | name :: rest => 1 + name.utf8ByteSize + Location.byteSize rest

structure FileSystem where
  root : FileNode
  workingDirectory : Location

namespace FileSystem

/-- An empty directory at the given location, in which work goes on. -/
def ofWorkingDirectory (location : Location) : FileSystem :=
  ⟨location.foldr (fun name node => .directory [(name, node)]) (.directory []), location⟩

/-! ## Walking -/

/-- How many links one walk follows. -/
def linkLimit : Nat := 40

/-- How many bytes a name can have. -/
def nameLimit : Nat := 255

/-- How many bytes a path can have. -/
def pathLimit : Nat := 4095

/-- Walks from a location up to the first link, which `follow` is asked to go on from: it is given
the directory of the link, its target and the steps still to go. What a step down leads to is only
looked up if `allowed` holds of it. -/
def walk (fs : FileSystem) (allowed : Location → Bool)
    (follow : Location → String → List Step → Except AccessError Location) :
    Location → List Step → Except AccessError Location
  | location, [] => .ok location
  | location, step :: rest =>
    match fs.root.at? location with
    | some (.directory entries) =>
      match step with
      | .stay => walk fs allowed follow location rest
      | .up => walk fs allowed follow location.dropLast rest
      | .down name =>
        if nameLimit < name.utf8ByteSize ∨ !allowed (location ++ [name]) then .error .other
        else
          match entries.lookup name with
          | none => .error .notFound
          | some (.link target) => follow location target rest
          | some _ => walk fs allowed follow (location ++ [name]) rest
    | some _ => .error .notADirectory
    | none => .error .notFound

/-- Where a walk along a path starts from a location. -/
def start (location : Location) (path : String) : Location :=
  if Path.isAbsolute path then [] else location

/-- Walks from a location and follows as many links as are given. -/
def walkLinks (fs : FileSystem) (allowed : Location → Bool) : (links : Nat) → Location →
    List Step → Except AccessError Location
  | 0, location, steps => fs.walk allowed (fun _ _ _ => .error .other) location steps
  | links + 1, location, steps =>
    fs.walk allowed
      (fun directory target rest =>
        walkLinks fs allowed links (start directory target) (Path.steps target ++ rest))
      location steps

/-- Walks from a location and follows at most `linkLimit` links. -/
def walkFrom (fs : FileSystem) (location : Location) (steps : List Step) :
    Except AccessError Location := fs.walkLinks (fun _ => true) linkLimit location steps

/-- An empty path leads nowhere, and a text with a zero character is no path. -/
def checkText (path : String) : Except AccessError Unit :=
  if path = "" then .error .notFound
  else if path.toList.contains '\x00' then .error .other
  else .ok ()

/-- No walk is begun along a path that is too long. -/
def checkPath (path : String) : Except AccessError Unit := do
  checkText path
  if pathLimit < path.utf8ByteSize then .error .other else .ok ()

/-- The location that a path leads to from the working directory. -/
def locate (fs : FileSystem) (path : String) : Except AccessError Location := do
  checkPath path
  fs.walkFrom (start fs.workingDirectory path) (Path.steps path)

/-- The location that a path leads to, found by asking for every place on the way by its path from
the root. So the paths of these places must not be too long, while that of the whole walk may. -/
def canonical (fs : FileSystem) (path : String) : Except AccessError Location := do
  checkText path
  fs.walkLinks (fun location => location.byteSize ≤ pathLimit) linkLimit
    (start fs.workingDirectory path) (Path.steps path)

/-- The file or directory that a path leads to. -/
def node (fs : FileSystem) (path : String) : Except AccessError FileNode := do
  let location ← fs.locate path
  match fs.root.at? location with
  | some node => .ok node
  | none => .error .notFound

/-! ## Reading -/

/-- The text of a file, which must be UTF-8. -/
def textOf : FileNode → Except AccessError String
  | .file bytes =>
    match String.fromUTF8? bytes with
    | some text => .ok text
    | none => .error .notText
  | _ => .error .other

/-- The text of the file that a path leads to. -/
def readText (fs : FileSystem) (path : String) : Except AccessError String := do
  textOf (← fs.node path)

/-- The entries of the directory that a path leads to, as they are listed. -/
def entries (fs : FileSystem) (path : String) :
    Except AccessError (List (String × FileNode)) := do
  match ← fs.node path with
  | .directory entries => .ok entries
  | _ => .error .notADirectory

def isDirectory (fs : FileSystem) (path : String) : Bool :=
  match fs.node path with
  | .ok (.directory _) => true
  | _ => false

/-- The name of a directory by its path, or else by its location; the root has none. -/
def nameOf (fs : FileSystem) (path : String) : Except AccessError String :=
  match Path.lastName? path with
  | some name => .ok name
  | none => do
    let location ← fs.canonical path
    return location.getLast?.getD ""

/-! ## Writing -/

def setEntry (fs : FileSystem) (directory : Location) (name : String) (node : FileNode) :
    FileSystem :=
  { fs with root := fs.root.updateAt (OrderedMap.setEntry name node) directory }

/-- One step that makes a directory where there is nothing. -/
def enter (fs : FileSystem) (location : Location) (step : Step) :
    Except AccessError (FileSystem × Location) :=
  match fs.walkFrom location [step, .stay] with
  | .ok next => .ok (fs, next)
  | .error .notFound =>
    match step, fs.root.at? location with
    | .down name, some (.directory entries) =>
      match entries.lookup name with
      | none => .ok (fs.setEntry location name (.directory []), location ++ [name])
      | some _ => .error .notFound
    | _, _ => .error .notFound
  | .error error => .error error

def enterAll (fs : FileSystem) (location : Location) :
    List Step → Except AccessError (FileSystem × Location)
  | [] => .ok (fs, location)
  | step :: rest => do
    let (fs, location) ← fs.enter location step
    enterAll fs location rest

/-- Makes a directory and those above it that are missing. -/
def makeDirectory (fs : FileSystem) (path : String) : Except AccessError FileSystem :=
  (enterAll fs (start fs.workingDirectory path) (Path.steps path)).map Prod.fst

/-- The directory that a path's last name stands in, made if it is missing, and that name. -/
def openParent (fs : FileSystem) (path : String) :
    Except AccessError (FileSystem × Location × String) :=
  let steps := Path.steps path
  match steps.getLast? with
  | some (.down name) => do
    let (fs, location) ← enterAll fs (start fs.workingDirectory path) steps.dropLast
    return (fs, location, name)
  | _ => .error .other

/-- Puts a file at a name in a directory, or where a link of that name leads. -/
def putFile (fs : FileSystem) (bytes : ByteArray) :
    (links : Nat) → Location → String → Except AccessError FileSystem
  | links, directory, name =>
    match fs.root.at? (directory ++ [name]) with
    | some (.link target) =>
      match links, (Path.steps target).getLast? with
      | links + 1, some (.down last) => do
        let parent ← fs.walkFrom (start directory target) (Path.steps target).dropLast
        putFile fs bytes links parent last
      | _, _ => .error .other
    | some (.directory _) => .error .other
    | _ => .ok (fs.setEntry directory name (.file bytes))

/-- Writes a file and makes the directories above it that are missing. -/
def write (fs : FileSystem) (path : String) (bytes : ByteArray) :
    Except AccessError FileSystem := do
  let (fs, directory, name) ← fs.openParent path
  fs.putFile bytes linkLimit directory name

/-- Makes a link at a name that is free, and the directories above it that are missing. -/
def makeLink (fs : FileSystem) (path target : String) : Except AccessError FileSystem := do
  let (fs, directory, name) ← fs.openParent path
  match fs.root.at? (directory ++ [name]) with
  | none => .ok (fs.setEntry directory name (.link target))
  | some _ => .error .other

/-- Removes a file, a link itself, or a directory with all that is in it. -/
def remove (fs : FileSystem) (path : String) : Except AccessError FileSystem :=
  match Path.splitLast? path with
  | none => .error .other
  | some (steps, name) => do
    let directory ← fs.walkFrom (start fs.workingDirectory path) steps
    match fs.root.at? directory with
    | some (.directory entries) =>
      match entries.lookup name with
      | some _ =>
        let others := entries.filter fun entry => entry.1 ≠ name
        .ok { fs with root := fs.root.updateAt (fun _ => others) directory }
      | none => .error .notFound
    | _ => .error .notADirectory

end FileSystem

end BlueprintPackages
