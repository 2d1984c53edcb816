import BlueprintPackages.Json.Outline
import BlueprintPackages.OrderedMap

/-!
# Strict reading of JSON texts

`Json.ofText` reads a text as a JSON value. Of a key that comes more than once in an object the
first place and the last value are kept. Numbers must be in range, surrogates must be paired, and
at most `Json.depthLimit` arrays and objects may stand inside one another; the opening bracket of
one more is malformed.
-/

namespace BlueprintPackages

namespace Json

/-- How many arrays and objects may stand inside one another. -/
def depthLimit : Nat := 127

/-- The members of an object whose text has the given pairs of key and value. -/
def membersOf (pairs : List (String × Json)) : Members := (OrderedMap.ofList pairs).entries

mutual

/-- Reads a value; `room` more arrays and objects may open inside it. -/
def ofOutline (room : Nat) : Outline → Except Fault Json
  | .null => .ok null
  | .boolean b => .ok (boolean b)
  | .numeral n => (Outline.number n).map number
  | .cutNumeral place => .error (Outline.breakFault place)
  | .quoted q => q.text.map string
  | .broken fault => .error fault
  | .array items close =>
    match room with
    | 0 => .error .malformed
    | room + 1 => do
      let values ← ofItems room items
      Outline.finish close
      return array values
  | .object members close =>
    match room with
    | 0 => .error .malformed
    | room + 1 => do
      let pairs ← ofPairs room members
      Outline.finish close
      return object (membersOf pairs)
termination_by structural o => o

def ofItems (room : Nat) : List Outline → Except Fault (List Json)
  | [] => .ok []
  | x :: xs => do
    let value ← ofOutline room x
    let values ← ofItems room xs
    return value :: values
termination_by structural xs => xs

def ofPairs (room : Nat) : List (Quoted × Outline) → Except Fault (List (String × Json))
  | [] => .ok []
  | (key, x) :: rest => do
    let key ← key.text
    let value ← ofOutline room x
    let pairs ← ofPairs room rest
    return (key, value) :: pairs
termination_by structural ms => ms

end

/-- The value that a text spells. -/
def ofText (text : String) : Except Fault Json := Outline.readText (ofOutline depthLimit) text

/-- The members of the object that a text spells; any other value is a mismatch. -/
def membersOfText (text : String) : Except Fault Members :=
  Outline.readText
    (fun outline =>
      match outline with
      | .object members close => do
        let pairs ← ofPairs (depthLimit - 1) members
        Outline.finish close
        return membersOf pairs
      | other => .error other.mismatch)
    text

end Json

end BlueprintPackages
