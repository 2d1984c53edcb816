import BlueprintPackages.Registry
import BlueprintPackages.Text.Escaped

/-!
# Package trees

A `PackageTree` holds the packages of one loaded tree. Packages are numbered from the root, which
is number 0, and every other package comes after its parent. A `PackageNode` names its parent and
its subpackages by number, and a `Package` is a number together with its tree, so that it can be
asked for what is around it.

Every loaded tree has a stamp that tells it from all others. Two packages are the same if their
trees have the same stamp and their numbers agree.
-/

namespace BlueprintPackages

/-! ## Nodes and trees -/

/-- The name in an address that stands for the system package. -/
def systemName : String := "system"

/-- The number of every tree's root. -/
def rootId : PackageId := 0

/-- Where `system` leads in a tree: to another tree, to the tree itself, or nowhere. -/
inductive SystemLink (Tree : Type)
  | external (tree : Tree)
  | own
  | absent

structure PackageNode where
  name : String
  directory : Option String
  version : Int
  aliases : OrderedMap String
  parent : Option PackageId
  blueprints : OrderedMap Blueprint
  enumerations : OrderedMap Enumeration
  subpackages : OrderedMap PackageId

/-- The root's node, the nodes of all other packages by number, and the link to the system
package. -/
structure PackageTree where
  stamp : Nat
  top : PackageNode
  others : List PackageNode
  system : SystemLink PackageTree

namespace PackageTree

/-- The nodes by number. -/
def nodes (t : PackageTree) : List PackageNode := t.top :: t.others

def size (t : PackageTree) : Nat := t.nodes.length

end PackageTree

/-! ## Packages -/

/-- A package of a tree. -/
structure Package where
  tree : PackageTree
  id : Fin tree.size

namespace PackageTree

def root (t : PackageTree) : Package := ⟨t, ⟨rootId, Nat.succ_pos _⟩⟩

/-- The package of the given number, if there is one. -/
def package? (t : PackageTree) (id : PackageId) : Option Package :=
  if h : id < t.size then some ⟨t, ⟨id, h⟩⟩ else none

/-- What is said of a number that is no package's. -/
def outOfRange (id : PackageId) : String := s!"package id {id} out of range"

/-- All packages, parents before their subpackages. -/
def packages (t : PackageTree) : List Package := (List.finRange t.size).map fun id => ⟨t, id⟩

end PackageTree

namespace Package

def node (p : Package) : PackageNode := p.tree.nodes.get p.id

def name (p : Package) : String := p.node.name

def version (p : Package) : Int := p.node.version

def directory? (p : Package) : Option String := p.node.directory

/-- The same package of the very same tree. -/
def same (p q : Package) : Bool := p.tree.stamp == q.tree.stamp && p.id.val == q.id.val

/-! ## Climbing -/

def root (p : Package) : Package := p.tree.root

def parent? (p : Package) : Option Package := p.node.parent.bind p.tree.package?

def isRoot (p : Package) : Bool := p.node.parent.isNone

/-- The first packages on the way up from here, at most as many as given. -/
def climb : (count : Nat) → Package → List Package
  | 0, _ => []
  | count + 1, p =>
    p :: match p.parent? with
      | some q => climb count q
      | none => []

/-- This package, its parent, and so on up to the root. -/
def ancestors (p : Package) : List Package := climb p.tree.size p

/-- The names from the root down to this package. -/
def names (p : Package) : List String := (p.ancestors.map name).reverse

/-- The names from the root down, with slashes between them. -/
def path (p : Package) : String := "/".intercalate p.names

/-- The number and path of a package, for diagnostics. -/
def describe (p : Package) : String :=
  let id := toString p.id.val
  "Package \x7b id: PackageId(" ++ id ++ "), path: " ++ Text.quoted p.path ++ " \x7d"

/-! ## Looking up by name -/

def alias? (p : Package) (aliasName : String) : Option String := p.node.aliases.get? aliasName

def notFound (p : Package) (kind : LookupKind) (name : String) : LookupError :=
  .notFound kind name p.name

/-- The blueprint of the given name in this package. -/
def blueprint (p : Package) (name : String) : Except LookupError Blueprint :=
  match p.node.blueprints.get? name with
  | some b => .ok b
  | none => .error (p.notFound .blueprint name)

/-- The enumeration of the given name in this package. -/
def enumeration (p : Package) (name : String) : Except LookupError Enumeration :=
  match p.node.enumerations.get? name with
  | some e => .ok e
  | none => .error (p.notFound .enumeration name)

/-- The direct subpackage of the given name. -/
def subpackage (p : Package) (name : String) : Except LookupError Package :=
  match (p.node.subpackages.get? name).bind p.tree.package? with
  | some q => .ok q
  | none => .error (p.notFound .package name)

def blueprints (p : Package) : List Blueprint := p.node.blueprints.values

def enumerations (p : Package) : List Enumeration := p.node.enumerations.values

def subpackages (p : Package) : List Package :=
  p.node.subpackages.values.filterMap p.tree.package?

/-- The root of the system package that this tree was loaded with. -/
def system? (p : Package) : Option Package :=
  match p.tree.system with
  | .external tree => some tree.root
  | .own => some p.root
  | .absent => none

end Package

end BlueprintPackages
