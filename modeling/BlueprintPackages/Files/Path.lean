import BlueprintPackages.Text.Cut

/-!
# Paths as texts

A path is a text of names with slashes between them. `Path.steps` says how it is walked, `join`
extends it by a name, and `splitLast?` and `extension?` look at its end.
-/

namespace BlueprintPackages

/-- One step along a path: stay, go up, or go down to a name. -/
inductive Step
  | stay
  | up
  | down (name : String)
deriving DecidableEq

namespace Step

def ofName (name : String) : Step :=
  if name = "" ∨ name = "." then stay
  else if name = ".." then up
  else down name

end Step

namespace Path

def separator : Char := '/'

def names (path : String) : List String :=
  (Text.pieces separator path.toList).map String.ofList

def isAbsolute (path : String) : Bool := path.toList.head? = some separator

/-- The steps along a path; doubled slashes and a slash at the end are steps that stay. -/
def steps (path : String) : List Step := (names path).map Step.ofName

/-- A path extended by a name, with a slash between them unless there is one already. -/
def join (path name : String) : String :=
  if path = "" ∨ path.toList.getLast? = some separator then path ++ name
  else path ++ "/" ++ name

/-- The steps before the name that a path ends in, and that name; steps that stay do not count, and
one up is no name. -/
def splitLast? (path : String) : Option (List Step × String) :=
  let moves := (steps path).filter (· ≠ .stay)
  match moves.getLast? with
  | some (.down name) => some (moves.dropLast, name)
  | _ => none

def lastName? (path : String) : Option String := (splitLast? path).map Prod.snd

/-- What follows the last dot of a name, unless nothing precedes that dot. -/
def extension? (name : String) : Option String :=
  match Text.cutLast? '.' name.toList with
  | some (_ :: _, after) => some (String.ofList after)
  | _ => none

end Path

end BlueprintPackages
