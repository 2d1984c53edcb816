import BlueprintPackages.Source.Build

/-!
# The bundled system package

The system package holds the blueprints that describe blueprints. `SystemPackage.bundled` is the
tree of the ones that come with the library: a root `system` with one subpackage `SIMOS`, in which
each of seven blueprints is defined. It is its own system package, so its addresses lead into
itself.
-/

namespace BlueprintPackages.SystemPackage

/-! ## Definitions -/

/-- The name of the only subpackage. -/
def coreName : String := "SIMOS"

/-- One attribute, with the members that follow its name and type. -/
def attributeOf (name attributeType : String) (more : Members) : Json :=
  .object (("name", .string name) :: ("attributeType", .string attributeType) :: more)

def many : String × Json := ("dimensions", .string "*")

def required : String × Json := ("optional", .boolean false)

def trueByDefault : String × Json := ("default", .boolean true)

def notContained : String × Json := ("contained", .boolean false)

/-- A blueprint definition of the core with the given file name, which is its name too. -/
def blueprintOf (name description : String) (parents : Members) (attributes : List Json) :
    Definition where
  context := "<bundled>/" ++ systemName ++ "/" ++ coreName ++ "/" ++ name ++ ".json"
  content :=
    [("type", .string Registry.blueprintType), ("name", .string name),
      ("description", .string description)] ++ parents ++ [("attributes", .array attributes)]

def extending (address : String) : Members := [("extends", .array [.string address])]

def entityAddress : String := "system/SIMOS/Entity"

def namedEntityAddress : String := "system/SIMOS/NamedEntity"

def definitions : List Definition :=
  [ blueprintOf "Entity" "Base type of every SIMOS entity" []
      [ attributeOf "type" "string"
          [("description", .string "Address of the blueprint describing this entity"), required] ],
    blueprintOf "NamedEntity" "An entity with a name and a description" (extending entityAddress)
      [ attributeOf "name" "string" [required],
        attributeOf "description" "string" [] ],
    blueprintOf "Blueprint" "A named object schema" (extending namedEntityAddress)
      [ attributeOf "extends" "string" [many],
        attributeOf "attributes" "system/SIMOS/BlueprintAttribute" [many],
        attributeOf "abstract" "boolean" [] ],
    blueprintOf "BlueprintAttribute" "One field definition of a blueprint"
      (extending namedEntityAddress)
      [ attributeOf "attributeType" "string" [required],
        attributeOf "dimensions" "string" [],
        attributeOf "contained" "boolean" [trueByDefault],
        attributeOf "optional" "boolean" [trueByDefault],
        attributeOf "enumType" "string" [],
        attributeOf "default" "string" [],
        attributeOf "label" "string" [] ],
    blueprintOf "Enum" "A named enumeration type" (extending namedEntityAddress)
      [ attributeOf "values" "string" [many],
        attributeOf "labels" "string" [many] ],
    blueprintOf "Package" "A directory-backed namespace of blueprints, enums and packages"
      (extending namedEntityAddress)
      [ attributeOf "content" entityAddress [many, notContained],
        attributeOf "isRoot" "boolean" [],
        attributeOf "dependencies" "system/SIMOS/Dependency" [many] ],
    blueprintOf "Dependency" "Binds a short alias to a package address" (extending entityAddress)
      [ attributeOf "alias" "string" [],
        attributeOf "address" "string" [],
        attributeOf "version" "string" [],
        attributeOf "protocol" "string" [] ] ]

/-! ## The tree -/

def sourceOf (name : String) (definitions : List Definition) : PackageSource where
  directoryName := name
  directory := none
  metadata := none
  versions := none
  definitions

def source : SourceTree :=
  .node (sourceOf systemName []) [.node (sourceOf coreName definitions) []]

/-- The stamp of the bundled tree; trees that are loaded have others. -/
def stamp : Nat := 0

def built : Except BuildError PackageTree := source.toTree .simos .own stamp

theorem built_isOk : built.isOk = true := by decide +kernel

/-- The bundled system package. -/
def bundled : PackageTree :=
  match h : built with
  | .ok tree => tree
  | .error _ => absurd built_isOk (by simp [h, Except.isOk, Except.toBool])

theorem built_eq : built = .ok bundled := by
  unfold bundled
  split
  · next h => exact h
  · next h => exact absurd built_isOk (by simp [h, Except.isOk, Except.toBool])

end BlueprintPackages.SystemPackage
