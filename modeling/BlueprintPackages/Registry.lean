import BlueprintPackages.Enumeration
import BlueprintPackages.OrderedMap

/-!
# Entities and the registry of their types

An `Entity` is what an entity file defines. The type tag of a definition picks the constructor that
builds it from a `Registry`. The registry `Registry.simos` knows the two tags `blueprintType` and
`enumType`; other tags can be registered beside them. A constructor that is registered can be any
function, and can fail with any error.
-/

namespace BlueprintPackages

inductive Entity
  | blueprint (value : Blueprint)
  | enumeration (value : Enumeration)

namespace Entity

def name : Entity → String
  | blueprint b => b.name
  | enumeration e => e.name

/-- An entity of one kind never equals one of the other. -/
def same : Entity → Entity → Bool
  | blueprint a, blueprint b => a.same b
  | enumeration a, enumeration b => a.same b
  | _, _ => false

end Entity

/-- Builds an entity of a package from its definition. -/
abbrev Constructor := Definition → PackageId → Except BuildError Entity

namespace Constructor

def blueprint : Constructor := fun d package =>
  match Blueprint.ofDefinition d package with
  | .ok b => .ok (.blueprint b)
  | .error e => .error (.field e)

def enumeration : Constructor := fun d package =>
  match Enumeration.ofDefinition d package with
  | .ok e => .ok (.enumeration e)
  | .error e => .error (.field e)

end Constructor

/-- The constructors by type tag. -/
structure Registry where
  constructors : OrderedMap Constructor

namespace Registry

def blueprintType : String := "system/SIMOS/Blueprint"

def enumType : String := "system/SIMOS/Enum"

/-- Knows no tags at all. -/
def empty : Registry := ⟨.empty⟩

def constructor? (r : Registry) (tag : String) : Option Constructor := r.constructors.get? tag

def contains (r : Registry) (tag : String) : Bool := r.constructors.contains tag

/-- Registers a constructor, in place of the one that the tag had. -/
def register (r : Registry) (tag : String) (constructor : Constructor) : Registry :=
  ⟨r.constructors.insert tag constructor⟩

def simos : Registry :=
  (empty.register blueprintType .blueprint).register enumType .enumeration

/-- The registered tags in the order of their code points. -/
def tags (r : Registry) : List String := r.constructors.keys.mergeSort fun a b => decide (a ≤ b)

/-- Builds the entity that a definition with the given tag defines. -/
def construct (r : Registry) (tag : String) (d : Definition) (package : PackageId) :
    Except BuildError Entity :=
  match r.constructor? tag with
  | some constructor => constructor d package
  | none => .error (.unknownEntityType tag d.context)

end Registry

end BlueprintPackages
