import BlueprintPackages.Definition

/-!
# Attributes of blueprints

An `Attribute` is one field of a blueprint, built from its definition by `Attribute.ofDefinition`
with all defaults in place. What the definition says beyond that stays in `content`, from which
`isMany`, `isEnum` and `enumType?` are read.
-/

namespace BlueprintPackages

structure Attribute where
  name : String
  description : String
  attributeType : String
  contained : Bool
  optional : Bool
  content : Members

namespace Attribute

/-- The attribute types that are no addresses of blueprints. -/
def primitiveTypes : List String := ["boolean", "number", "string", "integer"]

/-- A text with every double quote made a single one. -/
def singleQuoted (text : String) : String :=
  String.ofList (text.toList.map fun c => if c = '"' then '\x27' else c)

/-- Builds an attribute. Name and type are required; the description is empty, and the attribute
contained and optional, unless the definition says otherwise. -/
def ofDefinition (d : Definition) : Except FieldError Attribute := do
  let name ← d.requiredText "name"
  let attributeType ← d.requiredText "attributeType"
  let description ← d.optionalText "description"
  let contained ← d.optionalFlag "contained"
  let optional ← d.optionalFlag "optional"
  return {
    name
    description := singleQuoted (description.getD "")
    attributeType
    contained := contained.getD true
    optional := optional.getD true
    content := d.content
  }

def get? (a : Attribute) (key : String) : Option Json := a.content.lookup key

def isPrimitive (a : Attribute) : Bool := primitiveTypes.contains a.attributeType

/-- The attribute holds a list of values: it has dimensions, of whatever kind. -/
def isMany (a : Attribute) : Bool := (a.get? "dimensions").isSome

/-- The attribute names an enumeration, in whatever way. -/
def isEnum (a : Attribute) : Bool :=
  match a.get? "enumType" with
  | none => false
  | some value => !value.isNull

/-- The address of the enumeration, if it is given as a text. -/
def enumType? (a : Attribute) : Option String :=
  match a.get? "enumType" with
  | some (.string address) => some address
  | _ => none

def same (a b : Attribute) : Bool :=
  a.name == b.name && a.description == b.description && a.attributeType == b.attributeType &&
    a.contained == b.contained && a.optional == b.optional && Json.sameMembers a.content b.content

end Attribute

end BlueprintPackages
