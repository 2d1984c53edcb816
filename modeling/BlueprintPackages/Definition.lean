import BlueprintPackages.Error
import BlueprintPackages.Json.Value

/-!
# Raw definitions

A `Definition` is the JSON object of an entity file, or of one attribute in it, with a `context`
that says where it stands. Its fields are read by accessors that know what a field must hold: an
absent field and a null count as the same, and a value of another kind is an error that names the
field and the context. Keys that no accessor asks for are kept in `content`.
-/

namespace BlueprintPackages

structure Definition where
  context : String
  content : Members

namespace Definition

/-- A definition from a JSON value, which must be an object. -/
def ofJson (context : String) : Json → Except FieldError Definition
  | .object content => .ok ⟨context, content⟩
  | _ => .error (.wrongShape "<root>" context .object)

/-! ## Fields -/

def get? (d : Definition) (key : String) : Option Json := d.content.lookup key

/-- The key is present, whatever its value. -/
def contains (d : Definition) (key : String) : Bool := (d.get? key).isSome

def missing (d : Definition) (key : String) : FieldError := .missing key d.context

def wrongShape (d : Definition) (key : String) (expected : Shape) : FieldError :=
  .wrongShape key d.context expected

/-- A text that must be there and must not be empty. -/
def requiredText (d : Definition) (key : String) : Except FieldError String :=
  match d.get? key with
  | none | some .null => .error (d.missing key)
  | some (.string text) => if text = "" then .error (d.missing key) else .ok text
  | some _ => .error (d.wrongShape key .text)

def optionalText (d : Definition) (key : String) : Except FieldError (Option String) :=
  match d.get? key with
  | none | some .null => .ok none
  | some (.string text) => .ok (some text)
  | some _ => .error (d.wrongShape key .text)

def optionalFlag (d : Definition) (key : String) : Except FieldError (Option Bool) :=
  match d.get? key with
  | none | some .null => .ok none
  | some (.boolean value) => .ok (some value)
  | some _ => .error (d.wrongShape key .flag)

/-- The items of a list, none if the list is absent. -/
def items (d : Definition) (key : String) : Except FieldError (List Json) :=
  match d.get? key with
  | none | some .null => .ok []
  | some (.array items) => .ok items
  | some _ => .error (d.wrongShape key .list)

/-! ## Equality -/

/-- Equal contexts, and contents that are equal as JSON. -/
def same (d e : Definition) : Bool :=
  d.context == e.context && Json.sameMembers d.content e.content

end Definition

end BlueprintPackages
