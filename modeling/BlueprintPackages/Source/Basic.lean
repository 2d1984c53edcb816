import BlueprintPackages.Definition
import BlueprintPackages.Metadata
import BlueprintPackages.OrderedMap
import BlueprintPackages.VersionTable

/-!
# Sources of packages

A `PackageSource` holds what one directory says about its package, parsed but not interpreted, and
a `SourceTree` puts the sources of the subpackages under it. A source knows nothing of the packages
around it: its name, aliases and version come from itself alone.
-/

namespace BlueprintPackages

structure PackageSource where
  directoryName : String
  directory : Option String
  metadata : Option Metadata
  versions : Option VersionTable
  definitions : List Definition

inductive SourceTree
  | node (source : PackageSource) (children : List SourceTree)

namespace PackageSource

/-- The name of the package: that of its directory, unless the metadata gives another. -/
def name (s : PackageSource) : String := (s.metadata.bind Metadata.name).getD s.directoryName

def aliases (s : PackageSource) : OrderedMap String :=
  match s.metadata with
  | none => .empty
  | some metadata => .ofList metadata.bindings

/-- The version of the package: the one that its version table has for its name, else the one of
its metadata, else zero. -/
def version (s : PackageSource) : Except FieldError Int := do
  let declared := (s.metadata.bind Metadata.version?).getD 0
  match s.versions with
  | none => return declared
  | some table => return (← table.version? s.name).getD declared

end PackageSource

namespace SourceTree

def source : SourceTree → PackageSource
  | node source _ => source

def children : SourceTree → List SourceTree
  | node _ children => children

end SourceTree

end BlueprintPackages
