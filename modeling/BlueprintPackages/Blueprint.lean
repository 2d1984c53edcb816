import BlueprintPackages.Attribute

/-!
# Blueprints

A `Blueprint` is a named object schema: the addresses of the blueprints it extends and its
attributes, in the order of the definition. `Blueprint.ofDefinition` reports the first fault in the
order name, description, extended blueprints, attributes.
-/

namespace BlueprintPackages

/-- The number of a package within its tree. -/
abbrev PackageId := Nat

structure Blueprint where
  name : String
  description : String
  parents : List String
  attributes : List Attribute
  package : PackageId
  content : Members

namespace Blueprint

/-- How errors inside a blueprint call it. -/
def label (name : String) : String := s!"blueprint '{name}'"

def attributeLabel (blueprint : String) (index : Nat) : String :=
  let owner := label blueprint
  s!"attribute #{index} of {owner}"

/-- The addresses in the list of extended blueprints, which must all be texts. -/
def parentsOf (name : String) : List Json → Except FieldError (List String)
  | [] => .ok []
  | .string address :: rest => return address :: (← parentsOf name rest)
  | _ :: _ => .error (.wrongShape "extends" (label name) .textList)

/-- The attributes in a list whose first item has the given index. -/
def attributesOf (name : String) : (index : Nat) → List Json → Except FieldError (List Attribute)
  | _, [] => .ok []
  | index, value :: rest => do
    let d ← Definition.ofJson (attributeLabel name index) value
    let built ← Attribute.ofDefinition d
    return built :: (← attributesOf name (index + 1) rest)

/-- Builds a blueprint of the given package. -/
def ofDefinition (d : Definition) (package : PackageId) : Except FieldError Blueprint := do
  let name ← d.requiredText "name"
  let description ← d.optionalText "description"
  let parents ← parentsOf name (← d.items "extends")
  let attributes ← attributesOf name 0 (← d.items "attributes")
  return {
    name
    description := description.getD ""
    parents
    attributes
    package
    content := d.content
  }

def get? (b : Blueprint) (key : String) : Option Json := b.content.lookup key

/-- The first attribute of the given name. -/
def attribute? (b : Blueprint) (name : String) : Option Attribute :=
  b.attributes.find? fun a => a.name = name

/-- The attributes that name an enumeration. -/
def enumAttributes (b : Blueprint) : List Attribute := b.attributes.filter Attribute.isEnum

def sameAttributes : List Attribute → List Attribute → Bool
  | [], [] => true
  | a :: as, b :: bs => a.same b && sameAttributes as bs
  | _, _ => false

def same (a b : Blueprint) : Bool :=
  a.name == b.name && a.description == b.description && a.parents == b.parents &&
    sameAttributes a.attributes b.attributes && a.package == b.package &&
    Json.sameMembers a.content b.content

end Blueprint

end BlueprintPackages
