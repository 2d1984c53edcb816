import BlueprintPackages.Text.Unprintable

/-!
# Texts in quotation marks

`Text.quoted` writes a text for a reader who has to see every character of it: between double
quotes, with a backslash before a quote or a backslash, with letters for the common controls, and
with the code point of every other character that is not shown as itself.
-/

namespace BlueprintPackages.Text

/-- The code point of a character in braces, in hexadecimal digits. -/
def byCodePoint (c : Char) : List Char :=
  ['\\', 'u', '{'] ++ Nat.toDigits 16 c.toNat ++ ['}']

def escapedChar (c : Char) : List Char :=
  match c with
  | '"' => ['\\', '"']
  | '\\' => ['\\', '\\']
  | '\x00' => ['\\', '0']
  | '\t' => ['\\', 't']
  | '\n' => ['\\', 'n']
  | '\r' => ['\\', 'r']
  | c => if isUnprintable c then byCodePoint c else [c]

def quoted (text : String) : String :=
  String.ofList ('"' :: text.toList.flatMap escapedChar ++ ['"'])

end BlueprintPackages.Text
