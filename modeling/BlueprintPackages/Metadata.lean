import BlueprintPackages.Json.Record

/-!
# Package metadata

`Metadata` is what a package says about itself in its `package.json`: a name that replaces the name
of its directory, a version, and the dependencies that declare its aliases. `Metadata.ofText` reads
it in one pass; keys that are not known are passed over.

Only a dependency with both an alias and an address declares something, and its alias must not be
empty. Of several addresses for one alias the last counts.
-/

namespace BlueprintPackages

/-- A package that another depends on. -/
structure Dependency where
  aliasName : Option String
  address : Option String

/-- The version of a package and its dependencies. -/
structure PackageDetails where
  version : Option Int
  dependencies : List Dependency

structure Metadata where
  name : Option String
  details : Option PackageDetails

namespace Dependency

def ofOutline (outline : Outline) : Except Fault Dependency := do
  let text := Outline.nullable Outline.text
  let (aliasName, address) ← outline.record ⟨"alias", text⟩ ⟨"address", text⟩ false
  return { aliasName := aliasName.join, address := address.join }

/-- The alias that a dependency declares, and what it stands for. -/
def binding? (d : Dependency) : Option (String × String) :=
  match d.aliasName, d.address with
  | some aliasName, some address => if aliasName = "" then none else some (aliasName, address)
  | _, _ => none

end Dependency

namespace PackageDetails

def ofOutline (outline : Outline) : Except Fault PackageDetails := do
  let (version, dependencies) ← outline.record
    ⟨"version", Outline.nullable Outline.integer⟩
    ⟨"dependencies", Outline.list Dependency.ofOutline⟩ true
  return { version := version.join, dependencies := dependencies.getD [] }

end PackageDetails

namespace Metadata

def ofOutline (outline : Outline) : Except Fault Metadata := do
  let (name, details) ← outline.record
    ⟨"name", Outline.nullable Outline.text⟩
    ⟨"_meta_", Outline.nullable PackageDetails.ofOutline⟩ false
  return { name := name.join, details := details.join }

def ofText (text : String) : Except Fault Metadata := Outline.readText ofOutline text

def version? (m : Metadata) : Option Int := m.details.bind PackageDetails.version

def dependencies (m : Metadata) : List Dependency :=
  match m.details with
  | none => []
  | some details => details.dependencies

/-- The declared aliases with what they stand for, in the order of the dependencies. -/
def bindings (m : Metadata) : List (String × String) := m.dependencies.filterMap Dependency.binding?

end Metadata

end BlueprintPackages
