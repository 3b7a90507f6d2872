namespace PayloadCheck.Schema

/-- A step into an object or an array. -/
inductive Step
  | name (s : String)
  | index (i : Nat)
deriving DecidableEq, Repr

abbrev Location := List Step

namespace Location

/-- The text of a step behind others: a dot before a name, brackets around an index. -/
def stepText : Step → String
  | .name s => "." ++ s
  | .index i => "[" ++ toString i ++ "]"

/-- The text of a location. No dot stands before its first name. -/
def text : Location → String
  | [] => ""
  | .name s :: rest => s ++ String.join (rest.map stepText)
  | steps => String.join (steps.map stepText)

/-- The last name of a location with the indices behind it, or all indices if it has no name. -/
def tail (location : Location) : Location :=
  match location.reverse.span fun step => step matches .index _ with
  | (indices, last :: _) => last :: indices.reverse
  | (indices, []) => indices.reverse

end Location

end PayloadCheck.Schema
