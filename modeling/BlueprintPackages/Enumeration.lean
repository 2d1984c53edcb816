import BlueprintPackages.Blueprint

/-!
# Enumerations

An `Enumeration` is a named enumeration type. Only its name and description are interpreted; its
values and labels stay in `content`.
-/

namespace BlueprintPackages

structure Enumeration where
  name : String
  description : String
  package : PackageId
  content : Members

namespace Enumeration

/-- Builds an enumeration of the given package. -/
def ofDefinition (d : Definition) (package : PackageId) : Except FieldError Enumeration := do
  let name ← d.requiredText "name"
  let description ← d.optionalText "description"
  return { name, description := description.getD "", package, content := d.content }

def get? (e : Enumeration) (key : String) : Option Json := e.content.lookup key

def same (a b : Enumeration) : Bool :=
  a.name == b.name && a.description == b.description && a.package == b.package &&
    Json.sameMembers a.content b.content

end Enumeration

end BlueprintPackages
