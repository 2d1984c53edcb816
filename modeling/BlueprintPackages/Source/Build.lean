import BlueprintPackages.Alias
import BlueprintPackages.Package
import BlueprintPackages.Source.Basic

/-!
# Building package trees

A package is built from its own source: `PackageSource.toNode` settles its version, then builds its
definitions in order through a registry and files each entity under its name. Nothing of the
packages around it is looked at but the number of its parent.

A tree is built by adding to it. Every package is added before its subpackages and those in order,
and takes as its number the size that the tree had, so the packages are numbered depth first, and of
several errors the first in that order is reported. A subpackage is filed when all below it has been
added, under the name it was built with. Of two with one name the later is found, and both stay in
the tree.
-/

namespace BlueprintPackages

namespace BuildError

def ofField {α : Type} : Except FieldError α → Except BuildError α
  | .ok value => .ok value
  | .error error => .error (.field error)

end BuildError

/-! ## One package -/

namespace Entity

def blueprint? : Entity → Option (String × Blueprint)
  | blueprint b => some (b.name, b)
  | enumeration _ => none

def enumeration? : Entity → Option (String × Enumeration)
  | blueprint _ => none
  | enumeration e => some (e.name, e)

end Entity

namespace PackageSource

/-- The type tag of a definition, with an alias of the package expanded. -/
def tagOf (s : PackageSource) (d : Definition) : Except BuildError String := do
  let type ← BuildError.ofField (d.requiredText "type")
  match Alias.expand s.aliases type with
  | .ok expanded => .ok (expanded.getD type)
  | .error aliasName => .error (.unresolvedAlias aliasName s.name)

/-- Builds the entity of one definition. -/
def entityOf (s : PackageSource) (registry : Registry) (id : PackageId) (d : Definition) :
    Except BuildError Entity := do
  let tag ← s.tagOf d
  registry.construct tag d id

/-- Builds the entities of definitions in order. -/
def entitiesOf (s : PackageSource) (registry : Registry) (id : PackageId) :
    List Definition → Except BuildError (List Entity)
  | [] => .ok []
  | d :: rest => do
    let entity ← s.entityOf registry id d
    return entity :: (← entitiesOf s registry id rest)

/-- Builds the package itself, without subpackages. -/
def toNode (s : PackageSource) (registry : Registry) (id : PackageId)
    (parent : Option PackageId) : Except BuildError PackageNode := do
  let version ← BuildError.ofField s.version
  let entities ← s.entitiesOf registry id s.definitions
  return {
    name := s.name
    directory := s.directory
    version
    aliases := s.aliases
    parent
    blueprints := .ofList (entities.filterMap Entity.blueprint?)
    enumerations := .ofList (entities.filterMap Entity.enumeration?)
    subpackages := .empty
  }

end PackageSource

/-! ## A tree that grows -/

/-- Files a subpackage under a name, in place of one that had it. -/
def PackageNode.file (node : PackageNode) (name : String) (child : PackageId) : PackageNode :=
  { node with subpackages := node.subpackages.insert name child }

namespace PackageTree

/-- Adds a package. Its number is the size that the tree had. -/
def push (t : PackageTree) (node : PackageNode) : PackageTree :=
  { t with others := t.others ++ [node] }

/-- Changes the node of the given number. -/
def modify (t : PackageTree) (id : PackageId) (change : PackageNode → PackageNode) : PackageTree :=
  match id with
  | 0 => { t with top := change t.top }
  | id + 1 => { t with others := t.others.modify id change }

/-- Files one package of the tree below another, under the name that it was built with. -/
def file (t : PackageTree) (parent child : PackageId) : PackageTree :=
  match t.nodes[child]? with
  | some node => t.modify parent fun top => top.file node.name child
  | none => t

end PackageTree

/-! ## Whole trees -/

namespace SourceTree

mutual

/-- Adds a package and all packages below it to the tree built so far. -/
def addTo (registry : Registry) (parent : PackageId) (t : PackageTree) :
    SourceTree → Except BuildError PackageTree
  | node source children => do
    let top ← source.toNode registry t.size (some parent)
    addAllTo registry t.size (t.push top) children
termination_by structural tree => tree

/-- Adds the subpackages of a package in order and files each when all below it is there. -/
def addAllTo (registry : Registry) (parent : PackageId) (t : PackageTree) :
    List SourceTree → Except BuildError PackageTree
  | [] => .ok t
  | child :: rest => do
    let grown ← addTo registry parent t child
    addAllTo registry parent (grown.file parent t.size) rest
termination_by structural trees => trees

end

/-- Builds a whole tree, from its root on. -/
def toTree (registry : Registry) (system : SystemLink PackageTree) (stamp : Nat)
    (source : SourceTree) : Except BuildError PackageTree := do
  let top ← source.source.toNode registry rootId none
  addAllTo registry rootId { stamp, top, others := [], system } source.children

end SourceTree

end BlueprintPackages
