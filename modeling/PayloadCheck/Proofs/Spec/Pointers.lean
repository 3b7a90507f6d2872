import PayloadCheck.Proofs.Spec.History
import PayloadCheck.Proofs.Spec.Routes

namespace PayloadCheck.Spec

open Json Schema

/-- A text with a pair of characters in place of each occurrence of one. -/
def putPair (c first second : Char) (text : List Char) : List Char :=
  text.flatMap fun d => if d = c then [first, second] else [d]

/-- The escaped form of a name: a pair for each tilde, and after that one for each slash. -/
def escape (name : List Char) : List Char := putPair '/' '~' '1' (putPair '~' '~' '0' name)

section

variable {c first second other d : Char} {text : List Char}

end

section

variable {table : Table} (known : table ∈ tables)
include known

end

end PayloadCheck.Spec
