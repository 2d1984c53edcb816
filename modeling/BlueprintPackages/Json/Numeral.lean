import BlueprintPackages.Json.Value

/-!
# Number texts and their values

A `Numeral` holds the digits of a number text: the whole part, the digits after the point and the
exponent. `Numeral.scan` takes one off the front of a text, or says whether the text ran out or
went wrong inside it.

`Numeral.value?` is the number meant. Without point and exponent it is an integer, as long as it
lies between `-2 ^ 63` and `2 ^ 64 - 1` and is not `-0`. Every other numeral is a double, computed
from a significand below `2 ^ 64` and one scaling by a power of ten: whole digits that no longer
fit the significand only count for the exponent, and digits after the point that no longer fit are
left out. A numeral too large for a double has no value; one too small is a zero.
-/

namespace BlueprintPackages

/-- The parts of a number text; digits are the numbers 0 to 9. -/
structure Numeral where
  negative : Bool
  whole : List Nat
  fraction : Option (List Nat)
  exponent : Option (Bool × List Nat)
deriving DecidableEq

namespace Numeral

/-! ## Reading the digits -/

/-- Where a number text fails: at the end of the text or at a character. -/
inductive Break
  | atEnd
  | atChar
deriving DecidableEq

/-- The digits at the front of a text, and what follows them. -/
def digits : List Char → List Nat × List Char
  | [] => ([], [])
  | c :: rest =>
    if c.isDigit then
      let (ds, after) := digits rest
      ((c.toNat - '0'.toNat) :: ds, after)
    else ([], c :: rest)

/-- One or more digits. -/
def someDigits (text : List Char) : Except Break (List Nat × List Char) :=
  match digits text with
  | ([], []) => .error .atEnd
  | ([], _ :: _) => .error .atChar
  | (ds, rest) => .ok (ds, rest)

/-- The whole part: a zero that no digit follows, or digits of which the first is not zero. -/
def scanWhole : List Char → Except Break (List Nat × List Char)
  | '0' :: c :: rest => if c.isDigit then .error .atChar else .ok ([0], c :: rest)
  | text => someDigits text

def scanFraction : List Char → Except Break (Option (List Nat) × List Char)
  | '.' :: rest => do
    let (ds, after) ← someDigits rest
    return (some ds, after)
  | text => .ok (none, text)

/-- The sign of an exponent, true for a minus. -/
def scanSign : List Char → Bool × List Char
  | '+' :: rest => (false, rest)
  | '-' :: rest => (true, rest)
  | text => (false, text)

def scanExponent : List Char → Except Break (Option (Bool × List Nat) × List Char)
  | [] => .ok (none, [])
  | c :: rest =>
    if c = 'e' ∨ c = 'E' then do
      let (negative, text) := scanSign rest
      let (ds, after) ← someDigits text
      return (some (negative, ds), after)
    else .ok (none, c :: rest)

/-- The numeral that follows an optional minus. -/
def scanUnsigned (negative : Bool) (text : List Char) : Except Break (Numeral × List Char) := do
  let (whole, text) ← scanWhole text
  let (fraction, text) ← scanFraction text
  let (exponent, text) ← scanExponent text
  return (⟨negative, whole, fraction, exponent⟩, text)

/-- The numeral at the front of a text, and what follows it. -/
def scan : List Char → Except Break (Numeral × List Char)
  | '-' :: rest => scanUnsigned true rest
  | text => scanUnsigned false text

/-! ## Scaling a double by a power of ten -/

/-- The largest power of ten that is a double. -/
def topPower : Nat := 308

/-- The double nearest to a power of ten. -/
def powerOfTen (k : Nat) : Float := Float.ofScientific 1 false k

/-- A double times a power of ten, unless that leaves the range of doubles. -/
def scaleUp? (f : Float) (k : Nat) : Option Float :=
  if k ≤ topPower then
    let g := f * powerOfTen k
    if g.isInf then none else some g
  else if f == 0.0 then some f
  else none

/-- A double divided by a power of ten, in steps of the largest power. -/
def scaleDown (f : Float) (k : Nat) : Float :=
  if k ≤ topPower then f / powerOfTen k
  else if f == 0.0 then f
  else scaleDown (f / powerOfTen topPower) (k - topPower)
termination_by k
decreasing_by
  simp only [topPower] at *
  omega

def scale? (f : Float) (exponent : Int) : Option Float :=
  match exponent with
  | .ofNat k => scaleUp? f k
  | .negSucc k => some (scaleDown f (k + 1))

/-! ## Values -/

/-- Significands stay below this bound. -/
def capacity : Nat := UInt64.size

/-- Appends digits to a significand while it stays below `capacity`; the second result counts the
digits left out. -/
def absorb (significand : Nat) : List Nat → Nat × Nat
  | [] => (significand, 0)
  | d :: ds =>
    if significand * 10 + d < capacity then absorb (significand * 10 + d) ds
    else (significand, ds.length + 1)

def ofDigits (ds : List Nat) : Nat := ds.foldl (fun n d => n * 10 + d) 0

/-- The power of ten that the exponent part names. -/
def power (n : Numeral) : Int :=
  match n.exponent with
  | none => 0
  | some (false, ds) => ofDigits ds
  | some (true, ds) => -ofDigits ds

def signed (negative : Bool) (f : Float) : Number :=
  .double (if negative then (-f).toBits else f.toBits)

/-- The number written as a bare sequence of digits with a value below `capacity`. -/
def integral (negative : Bool) (significand : Nat) : Number :=
  if negative then
    if 0 < significand ∧ Int64.minValue.toInt ≤ -significand then .integer (-significand)
    else signed true significand.toUInt64.toFloat
  else .integer significand

/-- The number that a numeral means, if it is in range. -/
def value? (n : Numeral) : Option Number :=
  let (whole, dropped) := absorb 0 n.whole
  if n.fraction.isNone ∧ n.exponent.isNone ∧ dropped = 0 then some (integral n.negative whole)
  else
    let fraction := n.fraction.getD []
    let (significand, ignored) := absorb whole fraction
    let exponent : Int := (dropped : Int) - ((fraction.length - ignored : Nat) : Int) + n.power
    (scale? significand.toUInt64.toFloat exponent).map (signed n.negative)

end Numeral

end BlueprintPackages
