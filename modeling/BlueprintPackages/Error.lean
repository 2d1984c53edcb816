import BlueprintPackages.Json.Fault

/-!
# What can go wrong

Errors are grouped by the activity that meets them. A `FieldError` is found in one definition, a
`BuildError` while a package is built from its definitions, a `ReadError` while files are read, and
a `LookupError` when a name or an address leads nowhere. Loading reads everything before it builds
anything, so a `LoadError` is one or the other. Each error about the model has a `message`.
-/

namespace BlueprintPackages

/-! ## Definitions -/

/-- The kinds of JSON value that a field can be required to hold. -/
inductive Shape
  | text
  | flag
  | list
  | textList
  | integer
  | object
deriving DecidableEq

def Shape.phrase : Shape → String
  | text => "a string"
  | flag => "a boolean"
  | list => "an array"
  | textList => "a list of strings"
  | integer => "an integer"
  | object => "a JSON object"

/-- A field of the definition called `context` is absent or empty, or holds another kind of value
than `expected`. -/
inductive FieldError
  | missing (field context : String)
  | wrongShape (field context : String) (expected : Shape)
deriving DecidableEq

def FieldError.message : FieldError → String
  | missing field context => s!"missing required field \"{field}\" in {context}"
  | wrongShape field context expected =>
    let phrase := expected.phrase
    s!"field \"{field}\" in {context} must be {phrase}"

/-! ## Building -/

/-- A package cannot be built: a definition has a bad field, its type uses an alias that the
package does not declare, nothing is registered for its type, or the constructor registered for it
fails for a reason of its own, which is told from others by its text. -/
inductive BuildError
  | field (error : FieldError)
  | unresolvedAlias (aliasName package : String)
  | unknownEntityType (tag context : String)
  | foreign (text : String)
deriving DecidableEq

def unresolvedAliasMessage (aliasName package : String) : String :=
  s!"unknown alias \"{aliasName}\" in package {package}"

def BuildError.message : BuildError → String
  | field error => error.message
  | unresolvedAlias aliasName package => unresolvedAliasMessage aliasName package
  | unknownEntityType tag context => s!"unhandled entity type \"{tag}\" in {context}"
  | foreign text => text

/-! ## Reading and loading -/

/-- Why a file or directory cannot be read. -/
inductive AccessError
  | notFound
  | notADirectory
  | notText
  | other
deriving DecidableEq

/-- A file cannot be read, does not hold the JSON it should, or holds no object. -/
inductive ReadError
  | access (path : String) (error : AccessError)
  | json (path : String) (fault : Fault)
  | field (error : FieldError)
deriving DecidableEq

inductive LoadError
  | read (error : ReadError)
  | build (error : BuildError)
deriving DecidableEq

/-! ## Looking up -/

/-- What a lookup by name looks for. -/
inductive LookupKind
  | blueprint
  | enumeration
  | package
deriving DecidableEq

def LookupKind.title : LookupKind → String
  | blueprint => "Blueprint"
  | enumeration => "Enum"
  | package => "Package"

/-- A lookup fails: an unknown alias, nothing of that name in a package, a first segment that is
not the root's name, or a `system` segment in a tree without a system package. -/
inductive LookupError
  | unresolvedAlias (aliasName package : String)
  | notFound (kind : LookupKind) (name package : String)
  | wrongRoot (expected found : String)
  | noSystemPackage (address : String)
deriving DecidableEq

def LookupError.message : LookupError → String
  | unresolvedAlias aliasName package => unresolvedAliasMessage aliasName package
  | notFound kind name package =>
    let title := kind.title
    s!"{title} not found \"{name}\" in {package}"
  | wrongRoot expected found => s!"expected root {expected} but got {found}"
  | noSystemPackage address => s!"no system package available to resolve \"{address}\""

end BlueprintPackages
