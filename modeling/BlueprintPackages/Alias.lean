import BlueprintPackages.OrderedMap
import BlueprintPackages.Text.Cut

/-!
# Aliases

A text `a:r` with a name `a` before its first colon uses the alias `a`. It is expanded to the
address that `a` stands for, a slash and `r`. The result is never expanded again, and a text that
begins with a colon uses no alias.
-/

namespace BlueprintPackages.Alias

/-- The alias that a text uses, and the rest of the text. -/
def split? (text : String) : Option (String × String) :=
  match Text.cutFirst? ':' text.toList with
  | some (c :: before, after) => some (String.ofList (c :: before), String.ofList after)
  | _ => none

/-- The expansion of a text, none if it uses no alias; the error is an alias without a meaning. -/
def expand (aliases : OrderedMap String) (text : String) : Except String (Option String) :=
  match split? text with
  | none => .ok none
  | some (aliasName, rest) =>
    match aliases.get? aliasName with
    | some address => .ok (some (address ++ "/" ++ rest))
    | none => .error aliasName

end BlueprintPackages.Alias
