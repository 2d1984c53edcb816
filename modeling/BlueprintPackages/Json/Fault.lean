/-!
# What can be wrong with a JSON text
-/

namespace BlueprintPackages

/-- A text ends too early, breaks the grammar, or is well formed so far but holds another kind of
value than its reader asks for. -/
inductive Fault
  | truncated
  | malformed
  | mismatched
deriving DecidableEq

end BlueprintPackages
