import BlueprintPackages.Error
import BlueprintPackages.Json.Read

/-!
# Version tables

A `VersionTable` is the content of a `__versions__.json` file: versions under the names of
packages. Entries are looked at only when they are asked for, so what stands under other names may
be of any kind.
-/

namespace BlueprintPackages

structure VersionTable where
  context : String
  entries : Members

namespace VersionTable

/-- The table that a text spells, which must be an object. -/
def ofText (context text : String) : Except Fault VersionTable :=
  (Json.membersOfText text).map fun entries => ⟨context, entries⟩

/-- The version of a package: an integer below `2 ^ 63`, or none if its entry is absent or null. -/
def version? (t : VersionTable) (package : String) : Except FieldError (Option Int) :=
  match t.entries.lookup package with
  | none | some .null => .ok none
  | some (.number (.integer value)) =>
    if value ≤ Int64.maxValue.toInt then .ok (some value)
    else .error (.wrongShape package t.context .integer)
  | some _ => .error (.wrongShape package t.context .integer)

end VersionTable

end BlueprintPackages
