import BlueprintPackages.Alias
import BlueprintPackages.Package
import BlueprintPackages.Text.Bytes

/-!
# Addresses of entities

An address names an entity of some package. An alias at its front is expanded through the alias
table of the package where the lookup starts. What stands before the last slash leads to the owning
package: its segments are walked from left to right, where an empty segment leads to the root,
`system` leads to the system package, the first segment otherwise must be the root's name, and a
later one names a subpackage. Without a slash the owner is the package where the lookup starts.

Empty and `system` segments are always meant from the tree where the lookup starts, even when the
walk has moved to the system package's tree.
-/

namespace BlueprintPackages

/-! ## Segments -/

inductive Segment
  | root
  | system
  | name (text : String)
deriving DecidableEq

namespace Segment

def separator : Char := '/'

def ofText (text : String) : Segment :=
  if text = "" then root else if text = systemName then system else name text

/-- The segments of a path. -/
def ofPath (path : List Char) : List Segment :=
  (Text.pieces separator path).map fun piece => ofText (String.ofList piece)

end Segment

/-! ## Walking -/

namespace Package

/-- One step of a walk from `start`. An error about `system` quotes the address looked up. -/
def step (start : Package) (address : String) (current : Option Package) :
    Segment → Except LookupError Package
  | .root => .ok start.root
  | .system =>
    match start.system? with
    | some q => .ok q
    | none => .error (.noSystemPackage address)
  | .name text =>
    match current with
    | some q => q.subpackage text
    | none =>
      if text = start.root.name then .ok start.root
      else .error (.wrongRoot start.root.name text)

/-- Walks segments from `start`; `current` is where the segments before these have led. -/
def walk (start : Package) (address : String) :
    (current : Option Package) → List Segment → Except LookupError Package
  | current, [] => .ok (current.getD start)
  | current, segment :: rest => do
    let next ← start.step address current segment
    walk start address (some next) rest

/-- The package and the name of the entity that a text without alias leads to. -/
def follow (start : Package) (text address : String) : Except LookupError (Package × String) :=
  match Text.cutLast? Segment.separator text.toList with
  | none => .ok (start, text)
  | some (path, name) => do
    let owner ← start.walk address none (Segment.ofPath path)
    return (owner, String.ofList name)

/-- The owner and the name of the entity that an address names. The name is the end of the address
as it was given, also when an alias was expanded. -/
def resolve (start : Package) (address : String) : Except LookupError (Package × String) :=
  match Alias.expand start.node.aliases address with
  | .error aliasName => .error (.unresolvedAlias aliasName start.name)
  | .ok none => start.follow address address
  | .ok (some expanded) => do
    let (owner, name) ← start.follow expanded address
    let given := Text.endOfSize? (Text.byteSize name.toList) address.toList
    return (owner, (given.map String.ofList).getD name)

end Package

/-! ## Entities by address -/

/-- An entity found by its address, with the package that owns it. -/
structure Resolved (α : Type) where
  package : Package
  entity : α

namespace Package

def blueprintAt (start : Package) (address : String) :
    Except LookupError (Resolved Blueprint) := do
  let (owner, name) ← start.resolve address
  return ⟨owner, ← owner.blueprint name⟩

def enumerationAt (start : Package) (address : String) :
    Except LookupError (Resolved Enumeration) := do
  let (owner, name) ← start.resolve address
  return ⟨owner, ← owner.enumeration name⟩

end Package

end BlueprintPackages
