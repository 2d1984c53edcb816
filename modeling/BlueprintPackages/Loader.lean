import BlueprintPackages.Source.Build
import BlueprintPackages.Source.Reading
import BlueprintPackages.SystemPackage

/-!
# Loading packages

A `Loader` has the registry that builds entities and the link to the system package of the trees it
loads. Loading reads a whole directory tree first and builds packages from it afterwards, so an
error of reading hides every error of building, wherever it stands. A failed load gives no tree.

A `SystemSource` says where a system package comes from.

The caller gives each loaded tree a stamp of its own, other than `SystemPackage.stamp`.
-/

namespace BlueprintPackages

structure Loader where
  registry : Registry
  system : SystemLink PackageTree

namespace Loader

/-- Knows the two standard types and resolves `system` to the bundled package. -/
def standard : Loader := ⟨.simos, .external SystemPackage.bundled⟩

/-- Loads trees without a system package. -/
def ofRegistry (registry : Registry) : Loader := ⟨registry, .absent⟩

def withRegistry (l : Loader) (registry : Registry) : Loader := { l with registry }

def withSystem (l : Loader) (tree : PackageTree) : Loader := { l with system := .external tree }

def withoutSystem (l : Loader) : Loader := { l with system := .absent }

/-- Reads the directory at a path and builds its tree with the given system link. -/
def loadWith (l : Loader) (system : SystemLink PackageTree) (fs : FileSystem) (stamp : Nat)
    (path : String) : Except LoadError PackageTree :=
  match SourceTree.read fs path with
  | .error error => .error (.read error)
  | .ok source =>
    match source.toTree l.registry system stamp with
    | .error error => .error (.build error)
    | .ok tree => .ok tree

/-- Loads the tree of the directory at a path. -/
def load (l : Loader) (fs : FileSystem) (stamp : Nat) (path : String) :
    Except LoadError PackageTree := l.loadWith l.system fs stamp path

/-- Loads a tree that is its own system package. -/
def loadSystem (l : Loader) (fs : FileSystem) (stamp : Nat) (path : String) :
    Except LoadError PackageTree := l.loadWith .own fs stamp path

end Loader

/-! ## Where the system package comes from -/

/-- The bundled package, a directory, or the user's own directory if there is one and the bundled
package otherwise. -/
inductive SystemSource
  | bundled
  | directory (path : String)
  | user

namespace SystemSource

instance : Inhabited SystemSource := ⟨bundled⟩

/-- The directory of a user's own system package, given the user's home directory. -/
def userDirectory (home : String) : String :=
  Path.join (Path.join home ".simos") systemName

def load (source : SystemSource) (fs : FileSystem) (home : String) (stamp : Nat) :
    Except LoadError PackageTree :=
  match source with
  | bundled => .ok SystemPackage.bundled
  | directory path => (Loader.ofRegistry .simos).loadSystem fs stamp path
  | user =>
    if fs.isDirectory (userDirectory home) then
      (Loader.ofRegistry .simos).loadSystem fs stamp (userDirectory home)
    else .ok SystemPackage.bundled

end SystemSource

end BlueprintPackages
