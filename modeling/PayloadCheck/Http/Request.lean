import PayloadCheck.Number.Integer
import PayloadCheck.Text.Case

namespace PayloadCheck.Http

/-- A request. Its path and query are percent-encoded, and its body comes in pieces. -/
structure Request where
  method : String
  path : List Char
  query : List Char
  headers : List (String × List Char)
  pieces : List (List Nat)
deriving DecidableEq, Repr

namespace Request

/-- The value of the first header with a name, which is given in small letters. -/
def header? (r : Request) (name : String) : Option (List Char) :=
  (r.headers.find? fun header => Text.lower header.1.toList = name.toList).map (·.2)

/-- Whether requests of this method bring a body. -/
def bringsBody (r : Request) : Bool :=
  r.method = "POST" || r.method = "PUT" || r.method = "PATCH"

def body (r : Request) : List Nat := r.pieces.flatten

/-- The length of the body as the request states it. What is no integer states none. -/
def statedLength? (r : Request) : Option Int :=
  (r.header? "content-length").bind fun text => (Number.numeral text).toOption

end Request

/-- The number of octets that a body may have unless another limit is set. -/
def standardBodyLimit : Int := 5 * 1024 * 1024

/-- Whether pieces go beyond a limit, on top of the octets counted so far. The count is compared after
each piece, so that no more than the limit is ever kept. -/
def goBeyond (limit : Int) (counted : Nat) : List (List Nat) → Bool
  | [] => limit < counted
  | piece :: rest =>
    let total := counted + piece.length
    limit < total || goBeyond limit total rest

/-- Whether a request is too large, by what it states or by what it brings. -/
def Request.isTooLarge (limit : Int) (r : Request) : Bool :=
  r.statedLength?.any (limit < ·) || (r.bringsBody && goBeyond limit 0 r.pieces)

/-- The count of octets alone decides, however they come in pieces. -/
theorem goBeyond_eq (limit : Int) (counted : Nat) (pieces : List (List Nat)) :
    goBeyond limit counted pieces = decide (limit < counted + pieces.flatten.length) := by
  induction pieces generalizing counted with
  | nil => simp [goBeyond]
  | cons piece rest ih =>
    rw [goBeyond, ih, List.flatten_cons, List.length_append, ← Bool.decide_or, decide_eq_decide]
    omega

end PayloadCheck.Http
