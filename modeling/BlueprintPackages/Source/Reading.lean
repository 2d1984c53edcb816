import BlueprintPackages.Files.FileSystem
import BlueprintPackages.Source.Basic

/-!
# Reading package directories

`SourceTree.read` reads a directory and all real directories below it. Every entry makes one
contribution: a directory is a subpackage whatever its name, a link that leads to a directory is
nothing, and of all other entries `package.json` is metadata, `__versions__.json` a version table
and a name with the extension `json` a definition.

Entries count in the order of their names. Each is read for itself, and of several errors in a
directory the one of the first name is reported; a subdirectory stands among the files at its own
name.
-/

namespace BlueprintPackages

/-! ## What files are for -/

inductive FileRole
  | metadata
  | versions
  | definition
deriving DecidableEq

namespace FileRole

def metadataFile : String := "package.json"

def versionsFile : String := "__versions__.json"

def definitionExtension : String := "json"

/-- What a file of the given name in a package directory is for, if anything. -/
def ofName? (name : String) : Option FileRole :=
  if name = metadataFile then some metadata
  else if name = versionsFile then some versions
  else if Path.extension? name = some definitionExtension then some definition
  else none

end FileRole

/-- What one entry of a directory adds to its package. -/
inductive Contribution
  | metadata (value : Metadata)
  | versions (value : VersionTable)
  | definition (value : Definition)
  | subpackage (value : SourceTree)
  | nothing

namespace Contribution

def metadata? : Contribution → Option Metadata
  | metadata value => some value
  | _ => none

def versions? : Contribution → Option VersionTable
  | versions value => some value
  | _ => none

def definition? : Contribution → Option Definition
  | definition value => some value
  | _ => none

def subpackage? : Contribution → Option SourceTree
  | subpackage value => some value
  | _ => none

end Contribution

/-! ## Reading files -/

namespace ReadError

def ofAccess {α : Type} (path : String) : Except AccessError α → Except ReadError α
  | .ok value => .ok value
  | .error error => .error (.access path error)

def ofFault {α : Type} (path : String) : Except Fault α → Except ReadError α
  | .ok value => .ok value
  | .error fault => .error (.json path fault)

def ofField {α : Type} : Except FieldError α → Except ReadError α
  | .ok value => .ok value
  | .error error => .error (.field error)

end ReadError

namespace FileRole

/-- What the text of a file for the given use contributes. -/
def contribution (path : String) (text : String) : FileRole → Except ReadError Contribution
  | metadata => (ReadError.ofFault path (Metadata.ofText text)).map .metadata
  | versions => (ReadError.ofFault path (VersionTable.ofText path text)).map .versions
  | definition => do
    let value ← ReadError.ofFault path (Json.ofText text)
    let d ← ReadError.ofField (Definition.ofJson path value)
    return .definition d

end FileRole

/-- What a file contributes; it is read only if it is for something. -/
def readFile (name path : String) (text : Except AccessError String) :
    Except ReadError Contribution :=
  match FileRole.ofName? name with
  | none => .ok .nothing
  | some role => do
    let text ← ReadError.ofAccess path text
    role.contribution path text

/-! ## Reading directories -/

namespace SourceTree

/-- A package directory's source and subpackages from what its entries contribute, in order. -/
def ofContributions (name path : String) (contributions : List Contribution) : SourceTree :=
  node
    { directoryName := name
      directory := some path
      metadata := contributions.findSome? Contribution.metadata?
      versions := contributions.findSome? Contribution.versions?
      definitions := contributions.filterMap Contribution.definition? }
    (contributions.filterMap Contribution.subpackage?)

/-- What reading one entry came to, under the name of the entry. -/
abbrev Outcome := String × Except ReadError Contribution

/-- The outcomes in the order of their names. -/
def sortOutcomes (outcomes : List Outcome) : List Outcome :=
  outcomes.mergeSort fun a b => decide (a.1 ≤ b.1)

/-- The contributions of a list of outcomes, or the first error in it. -/
def collect : List Outcome → Except ReadError (List Contribution)
  | [] => .ok []
  | (_, outcome) :: rest => do
    let contribution ← outcome
    return contribution :: (← collect rest)

/-- A package directory's source from the outcomes of its entries, in any order. -/
def assemble (name path : String) (outcomes : List Outcome) : Except ReadError SourceTree :=
  (collect (sortOutcomes outcomes)).map (ofContributions name path)

mutual

/-- Reads the entry of a directory that has the given name and path. -/
def readNode (fs : FileSystem) (name path : String) : FileNode → Except ReadError Contribution
  | .directory entries => do
    ReadError.ofAccess path (FileSystem.checkPath path)
    let tree ← assemble name path (readEntries fs path entries)
    return .subpackage tree
  | .file bytes =>
    readFile name path do
      FileSystem.checkPath path
      FileSystem.textOf (.file bytes)
  | .link _ => if fs.isDirectory path then .ok .nothing else readFile name path (fs.readText path)
termination_by structural entry => entry

/-- Reads all entries of the directory that has the given path. -/
def readEntries (fs : FileSystem) (path : String) : List (String × FileNode) → List Outcome
  | [] => []
  | (name, entry) :: rest =>
    (name, readNode fs name (Path.join path name) entry) :: readEntries fs path rest
termination_by structural entries => entries

end

/-- Reads the directory that a path leads to. -/
def read (fs : FileSystem) (path : String) : Except ReadError SourceTree := do
  let name ← ReadError.ofAccess path (fs.nameOf path)
  let entries ← ReadError.ofAccess path (fs.entries path)
  assemble name path (readEntries fs path entries)

end SourceTree

end BlueprintPackages
