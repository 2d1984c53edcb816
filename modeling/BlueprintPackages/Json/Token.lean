import BlueprintPackages.Json.Numeral
import BlueprintPackages.Json.Quoted

/-!
# Tokens of JSON texts

`Token.scan` cuts a text into punctuation, words, numerals and quoted texts, with white space left
out. A piece of text that is no token becomes `broken` and ends the sequence, as does a number text
that goes wrong, so whatever stands before it is judged first.
-/

namespace BlueprintPackages

inductive Token
  | openArray
  | closeArray
  | openObject
  | closeObject
  | comma
  | colon
  | null
  | boolean (value : Bool)
  | numeral (value : Numeral)
  | cutNumeral (place : Numeral.Break)
  | quoted (value : Quoted)
  | broken (fault : Fault)
deriving DecidableEq

namespace Token

/-- The four characters that may stand between tokens. -/
def isBlank (c : Char) : Bool := c = ' ' ∨ c = '\t' ∨ c = '\n' ∨ c = '\r'

/-- What follows the rest of a word, letter by letter. -/
def afterWord : List Char → List Char → Except Fault (List Char)
  | [], text => .ok text
  | _ :: _, [] => .error .truncated
  | w :: ws, c :: text => if w = c then afterWord ws text else .error .malformed

/-- The token of a word of which the first letter has been read. -/
def word (letters rest : List Char) (token : Token) : Token × List Char :=
  match afterWord letters rest with
  | .ok after => (token, after)
  | .error fault => (broken fault, [])

/-- The token of a number text. -/
def number (text : List Char) : Token × List Char :=
  match Numeral.scan text with
  | .ok (value, after) => (numeral value, after)
  | .error place => (cutNumeral place, [])

/-- The token at the front of a text whose first character is not blank, and what follows it. -/
def next (c : Char) (rest : List Char) : Token × List Char :=
  match c with
  | '[' => (openArray, rest)
  | ']' => (closeArray, rest)
  | '{' => (openObject, rest)
  | '}' => (closeObject, rest)
  | ',' => (comma, rest)
  | ':' => (colon, rest)
  | 'n' => word ['u', 'l', 'l'] rest null
  | 't' => word ['r', 'u', 'e'] rest (boolean true)
  | 'f' => word ['a', 'l', 's', 'e'] rest (boolean false)
  | '"' => ((Quoted.scan rest).map quoted id)
  | c => if c = '-' ∨ c.isDigit then number (c :: rest) else (broken .malformed, [])

/-- The tokens of a text, by at most `fuel` steps of one character or more. -/
def scanFrom : (fuel : Nat) → List Char → List Token
  | 0, _ => []
  | _, [] => []
  | fuel + 1, c :: rest =>
    if isBlank c then scanFrom fuel rest
    else
      let (token, after) := next c rest
      token :: scanFrom fuel after

def scan (text : String) : List Token :=
  let characters := text.toList
  scanFrom characters.length characters

end Token

end BlueprintPackages
