/-!
# JSON values

A `Json` value keeps what a text says beyond its meaning: the order of the members of an object,
and whether a number is an `integer` (written without point and exponent, in the range of 64 bits)
or a `double`. Equality of values, `Json.same`, looks past the order of members: objects are equal
when they have the same keys and every key has equal values. An integer never equals a double, and
of the doubles the two zeros are equal.
-/

namespace BlueprintPackages

/-! ## Values -/

/-- A number: an exact integer, or a double given by its IEEE 754 bits. -/
inductive Number
  | integer (value : Int)
  | double (bits : UInt64)
deriving DecidableEq

/-- A JSON value with the members of objects in the order of the text. -/
inductive Json
  | null
  | boolean (value : Bool)
  | number (value : Number)
  | string (value : String)
  | array (items : List Json)
  | object (members : List (String × Json))

/-- The members of an object, in order. -/
abbrev Members := List (String × Json)

/-! ## Equality without regard to the order of members -/

namespace Number

/-- The bits of a double without its sign are all zero. -/
def isZeroBits (bits : UInt64) : Bool := bits <<< 1 == 0

def same : Number → Number → Bool
  | integer a, integer b => a == b
  | double a, double b => a == b || (isZeroBits a && isZeroBits b)
  | _, _ => false

end Number

namespace Json

mutual

/-- Equality of values; the order of an object's members does not count. -/
def same : Json → Json → Bool
  | null, null => true
  | boolean a, boolean b => a == b
  | number a, number b => a.same b
  | string a, string b => a == b
  | array xs, array ys => sameItems xs ys
  | object ms, object ns => foundIn ms ns && ns.all fun m => (ms.lookup m.1).isSome
  | _, _ => false
termination_by structural a => a

/-- Equality item by item. -/
def sameItems : List Json → List Json → Bool
  | [], [] => true
  | x :: xs, y :: ys => same x y && sameItems xs ys
  | _, _ => false
termination_by structural xs => xs

/-- Every member of the first list has an equal value under its key in the second. -/
def foundIn : Members → Members → Bool
  | [], _ => true
  | (key, x) :: rest, ns =>
    (match ns.lookup key with
      | some y => same x y
      | none => false) && foundIn rest ns
termination_by structural ms => ms

end

/-- Equality of two objects given by their members. -/
def sameMembers (ms ns : Members) : Bool := same (object ms) (object ns)

def isNull : Json → Bool
  | null => true
  | _ => false

end Json

end BlueprintPackages
