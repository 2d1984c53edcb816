import BlueprintPackages.Json.Outline

/-!
# Records of two fields

`Outline.record` reads a record that has two known fields. It may be written as an object, in which
the fields stand in any order among other keys that are passed over and a known key may come only
once, or as the array of the two fields in order. `none` stands for a field that is absent.

A record is read in one pass: a fault of a key or of a field is reported before anything behind it
is looked at, and a repeated key before its own value.
-/

namespace BlueprintPackages

/-- A known field of a record: its key and the reader of its value. -/
structure Field (α : Type) where
  key : String
  read : Outline → Except Fault α

namespace Outline

variable {α β : Type}

/-! ## The two notations -/

/-- Reads the members of an object from here on, given the fields found so far. -/
def recordMembers (first : Field α) (second : Field β) :
    Option α → Option β → List (Quoted × Outline) → Except Fault (Option α × Option β)
  | a, b, [] => .ok (a, b)
  | a, b, (name, value) :: rest => do
    let key ← name.text
    if key = first.key then
      if a.isSome then .error .mismatched
      else recordMembers first second (some (← first.read value)) b rest
    else if key = second.key then
      if b.isSome then .error .mismatched
      else recordMembers first second a (some (← second.read value)) rest
    else do
      value.skim
      recordMembers first second a b rest

/-- The end of an array in which a field is still wanted. -/
def missingItem (close : Option Fault) : Fault := close.getD .mismatched

/-- Reads the fields in order; `short` says whether the second may be left out. -/
def recordItems (first : Field α) (second : Field β) (short : Bool) (close : Option Fault) :
    List Outline → Except Fault (Option α × Option β)
  | [] => .error (missingItem close)
  | [x] => do
    let a ← first.read x
    if short then do
      finish close
      return (some a, none)
    else .error (missingItem close)
  | [x, y] => do
    let a ← first.read x
    let b ← second.read y
    finish close
    return (some a, some b)
  | x :: y :: _ :: _ => do
    let _ ← first.read x
    let _ ← second.read y
    .error .malformed

/-- Reads a record in either notation. -/
def record (first : Field α) (second : Field β) (short : Bool) :
    Outline → Except Fault (Option α × Option β)
  | object members close => do
    let fields ← recordMembers first second none none members
    finish close
    return fields
  | array items close => recordItems first second short close items
  | other => .error other.mismatch

/-! ## Values of fields -/

/-- A value that may be null. -/
def nullable (read : Outline → Except Fault α) : Outline → Except Fault (Option α)
  | null => .ok none
  | other => (read other).map some

def text : Outline → Except Fault String
  | quoted q => q.text
  | other => .error other.mismatch

/-- An integer between `-2 ^ 63` and `2 ^ 63 - 1`. -/
def integer : Outline → Except Fault Int
  | numeral n => do
    match ← number n with
    | .integer value => if value ≤ Int64.maxValue.toInt then .ok value else .error .mismatched
    | .double _ => .error .mismatched
  | other => .error other.mismatch

def readAll (read : Outline → Except Fault α) : List Outline → Except Fault (List α)
  | [] => .ok []
  | x :: xs => do
    let a ← read x
    let as ← readAll read xs
    return a :: as

/-- An array of values of one kind. -/
def list (read : Outline → Except Fault α) : Outline → Except Fault (List α)
  | array items close => do
    let values ← readAll read items
    finish close
    return values
  | other => .error other.mismatch

end Outline

end BlueprintPackages
