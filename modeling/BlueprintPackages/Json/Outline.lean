import BlueprintPackages.Json.Token

/-!
# Outlines of JSON texts

An `Outline` is what a text spells, with every fault kept in its place: values in the order of the
text, members of objects with repetitions, quoted texts and numerals not yet judged. A value that
is missing or is no value stands as `broken`, and an array or object says by its `close` whether
its bracket came or why it did not. Nothing after a fault in the text is in the outline.

Readers of outlines go through them in the order of the text and stop at the first fault that
concerns them. So two readers of one text that ask for different things agree on what the text is.
`Outline.readText` lets a reader read a whole text: after a good value only blanks may follow.
-/

namespace BlueprintPackages

inductive Outline
  | null
  | boolean (value : Bool)
  | numeral (value : Numeral)
  | cutNumeral (place : Numeral.Break)
  | quoted (value : Quoted)
  | array (items : List Outline) (close : Option Fault)
  | object (members : List (Quoted × Outline)) (close : Option Fault)
  | broken (fault : Fault)

namespace Outline

/-! ## From tokens to outlines -/

mutual

/-- The value at the front of a list of tokens, and what follows it. -/
def value : (fuel : Nat) → List Token → Outline × List Token
  | 0, _ => (broken .truncated, [])
  | _, [] => (broken .truncated, [])
  | fuel + 1, token :: rest =>
    match token with
    | .null => (null, rest)
    | .boolean b => (boolean b, rest)
    | .numeral n => (numeral n, rest)
    | .cutNumeral place => (cutNumeral place, rest)
    | .quoted q => (quoted q, rest)
    | .broken fault => (broken fault, rest)
    | .openArray =>
      match rest with
      | [] => (array [] (some .truncated), [])
      | .closeArray :: rest => (array [] none, rest)
      | rest =>
        let (items, close, rest) := items fuel rest
        (array items close, rest)
    | .openObject =>
      match rest with
      | .closeObject :: rest => (object [] none, rest)
      | rest =>
        let (members, close, rest) := members fuel rest
        (object members close, rest)
    | _ => (broken .malformed, [])

/-- The items of an array from here to its end, how it ends, and what follows. -/
def items : (fuel : Nat) → List Token → List Outline × Option Fault × List Token
  | 0, _ => ([], some .truncated, [])
  | fuel + 1, tokens =>
    match value fuel tokens with
    | (x, .closeArray :: rest) => ([x], none, rest)
    | (x, .comma :: rest) =>
      let (xs, close, rest) := items fuel rest
      (x :: xs, close, rest)
    | (x, []) => ([x], some .truncated, [])
    | (x, _ :: _) => ([x], some .malformed, [])

/-- The members of an object from here to its end, how it ends, and what follows. -/
def members : (fuel : Nat) → List Token → List (Quoted × Outline) × Option Fault × List Token
  | 0, _ => ([], some .truncated, [])
  | fuel + 1, .quoted key :: .colon :: tokens =>
    match value fuel tokens with
    | (x, .closeObject :: rest) => ([(key, x)], none, rest)
    | (x, .comma :: rest) =>
      let (xs, close, rest) := members fuel rest
      ((key, x) :: xs, close, rest)
    | (x, []) => ([(key, x)], some .truncated, [])
    | (x, _ :: _) => ([(key, x)], some .malformed, [])
  | _ + 1, [.quoted key] => ([(key, broken .truncated)], some .truncated, [])
  | _ + 1, .quoted key :: _ :: _ => ([(key, broken .malformed)], some .malformed, [])
  | _ + 1, [] => ([], some .truncated, [])
  | _ + 1, _ :: _ => ([], some .malformed, [])

end

/-- The outline of the first value of a text, and whether anything follows it. -/
def ofText (text : String) : Outline × Bool :=
  let tokens := Token.scan text
  let (outline, rest) := value (2 * tokens.length + 1) tokens
  (outline, !rest.isEmpty)

/-! ## Reading -/

/-- The end of an array or object, once all before it has been read. -/
def finish (close : Option Fault) : Except Fault Unit :=
  match close with
  | none => .ok ()
  | some fault => .error fault

/-- The fault of a number text that breaks off, to a reader that wants its value. -/
def breakFault : Numeral.Break → Fault
  | .atEnd => .truncated
  | .atChar => .malformed

def number (n : Numeral) : Except Fault Number :=
  match n.value? with
  | some value => .ok value
  | none => .error .malformed

/-- What a reader reports that asked for another kind of value than the one here: the fault of a
word, number or quoted text that is not good itself, or else a mismatch. Arrays and objects are not
looked into. -/
def mismatch : Outline → Fault
  | broken fault => fault
  | cutNumeral place => breakFault place
  | numeral n => if n.value?.isSome then .mismatched else .malformed
  | quoted q =>
    match q.text with
    | .ok _ => .mismatched
    | .error fault => fault
  | _ => .mismatched

mutual

/-- Passes over a value of any kind: the grammar must hold, but values of numbers, surrogates and
the depth of nesting are not looked at. -/
def skim : Outline → Except Fault Unit
  | broken fault => .error fault
  | cutNumeral _ => .error .malformed
  | quoted q => q.skim
  | array items close => do
    skimItems items
    finish close
  | object members close => do
    skimMembers members
    finish close
  | _ => .ok ()
termination_by structural o => o

def skimItems : List Outline → Except Fault Unit
  | [] => .ok ()
  | x :: xs => do
    skim x
    skimItems xs
termination_by structural xs => xs

def skimMembers : List (Quoted × Outline) → Except Fault Unit
  | [] => .ok ()
  | (key, x) :: rest => do
    key.skim
    skim x
    skimMembers rest
termination_by structural ms => ms

end

/-- Reads a whole text: one value, with nothing but blanks after it. -/
def readText {α : Type} (read : Outline → Except Fault α) (text : String) : Except Fault α := do
  let (outline, more) := ofText text
  let result ← read outline
  if more then .error .malformed else .ok result

end Outline

end BlueprintPackages
