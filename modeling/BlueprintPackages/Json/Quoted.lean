import BlueprintPackages.Json.Fault
import BlueprintPackages.Text.Bytes

/-!
# Quoted texts

A `Quoted` is what stands between two quotation marks before escapes by number have been paired:
a list of pieces, each a character or a 16-bit unit, and the fault that cut the list short, if any.
`Quoted.scan` reads one off the front of a text.

`Quoted.text` is the text meant. Two units that form a surrogate pair are one character, and a
surrogate without its partner is malformed. A reader that only passes over a quoted text looks at
the fault and leaves surrogates alone.
-/

namespace BlueprintPackages

/-- One element of a quoted text. -/
inductive Piece
  | char (c : Char)
  | unit (value : Nat)
deriving DecidableEq

/-- The pieces between quotation marks, and why there are no more if the closing mark is missing. -/
structure Quoted where
  pieces : List Piece
  fault : Option Fault
deriving DecidableEq

namespace Quoted

/-! ## Reading the pieces -/

def hexDigit? (c : Char) : Option Nat :=
  if '0' ≤ c ∧ c ≤ '9' then some (c.toNat - '0'.toNat)
  else if 'a' ≤ c ∧ c ≤ 'f' then some (c.toNat - 'a'.toNat + 10)
  else if 'A' ≤ c ∧ c ≤ 'F' then some (c.toNat - 'A'.toNat + 10)
  else none

/-- The unit written by four hexadecimal digits. -/
def unit? (a b c d : Char) : Option Nat := do
  return ((← hexDigit? a) * 16 + (← hexDigit? b)) * 256 + (← hexDigit? c) * 16 + (← hexDigit? d)

/-- The character that a backslash and a letter or mark stand for. -/
def escaped? : Char → Option Char
  | '"' => some '"'
  | '\\' => some '\\'
  | '/' => some '/'
  | 'b' => some '\x08'
  | 'f' => some '\x0c'
  | 'n' => some '\n'
  | 'r' => some '\r'
  | 't' => some '\t'
  | _ => none

def cut (fault : Fault) : Quoted × List Char := (⟨[], some fault⟩, [])

def push (piece : Piece) (result : Quoted × List Char) : Quoted × List Char :=
  ({ result.1 with pieces := piece :: result.1.pieces }, result.2)

/-- Reads on from an opening quotation mark; nothing is left of a text that has a fault. An escape
by number needs four bytes to look at. -/
def scan : List Char → Quoted × List Char
  | [] => cut .truncated
  | ['\\'] => cut .truncated
  | '\\' :: 'u' :: a :: b :: c :: d :: rest =>
    match unit? a b c d with
    | some value => push (.unit value) (scan rest)
    | none => cut .malformed
  | '\\' :: 'u' :: rest => cut (if Text.byteSize rest < 4 then .truncated else .malformed)
  | '\\' :: e :: rest =>
    match escaped? e with
    | some c => push (.char c) (scan rest)
    | none => cut .malformed
  | c :: rest =>
    if c = '"' then (⟨[], none⟩, rest)
    else if c < ' ' then cut .malformed
    else push (.char c) (scan rest)

/-! ## The text meant -/

def isLeading (unit : Nat) : Bool := 0xD800 ≤ unit ∧ unit ≤ 0xDBFF

def isTrailing (unit : Nat) : Bool := 0xDC00 ≤ unit ∧ unit ≤ 0xDFFF

/-- The character of a surrogate pair. -/
def pair (leading trailing : Nat) : Char :=
  Char.ofNat (0x10000 + (leading - 0xD800) * 0x400 + (trailing - 0xDC00))

/-- The characters of the pieces, up to the first fault. After a leading surrogate an early end of
the pieces counts by its own fault, a proper end as malformed. -/
def characters : List Piece → Option Fault → Except Fault (List Char)
  | [], none => .ok []
  | [], some fault => .error fault
  | .char c :: rest, fault => (characters rest fault).map (c :: ·)
  | .unit u :: rest, fault =>
    if isTrailing u then .error .malformed
    else if isLeading u then
      match rest with
      | [] => .error (fault.getD .malformed)
      | .char _ :: _ => .error .malformed
      | .unit v :: rest =>
        if isTrailing v then (characters rest fault).map (pair u v :: ·) else .error .malformed
    else (characters rest fault).map (Char.ofNat u :: ·)

/-- The text between the quotation marks. -/
def text (q : Quoted) : Except Fault String :=
  (characters q.pieces q.fault).map String.ofList

/-- Passes over the text without forming it. -/
def skim (q : Quoted) : Except Fault Unit :=
  match q.fault with
  | none => .ok ()
  | some fault => .error fault

end Quoted

end BlueprintPackages
