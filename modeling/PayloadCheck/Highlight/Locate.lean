import PayloadCheck.Highlight.Range

namespace PayloadCheck.Highlight

/-- The characters that JSON builds with. -/
def isStructural (c : Char) : Bool :=
  c == '\x7b' || c == '\x7d' || c == '[' || c == ']' || c == ',' || c == ':'

def isSpace (c : Char) : Bool := c == ' ' || c == '\t' || c == '\n' || c == '\r'

def isToken (c : Char) : Bool := !isStructural c && !isSpace c

/-- The number of characters of a class directly before an offset. -/
def runBefore (belongs : Char → Bool) (text : List Char) (offset : Nat) : Nat :=
  ((text.take offset).reverse.takeWhile belongs).length

/-- The number of characters of a class from an offset on. -/
def runFrom (belongs : Char → Bool) (text : List Char) (offset : Nat) : Nat :=
  ((text.drop offset).takeWhile belongs).length

/-- The token that surrounds an offset, or ends at it; without one, the character there. -/
def tokenAt (text : List Char) (offset : Nat) : Range :=
  let start := offset - runBefore isToken text offset
  let stop := offset + runFrom isToken text offset
  ⟨start, max (start + 1) stop, by omega⟩

/-- Whether a class has the character before an offset. -/
def precededBy (belongs : Char → Bool) (text : List Char) (offset : Nat) : Bool :=
  (text.take offset).getLast?.any belongs

/-- The range for an offset inside the text. From white space the token on its left is preferred to
the one on its right, and the lone character is left where neither side has one. -/
def rangeAt (text : List Char) (offset : Nat) (c : Char) : Range :=
  if isSpace c then
    let left := offset - runBefore isSpace text offset
    let right := offset + runFrom isSpace text offset
    if precededBy (!isStructural ·) text left then tokenAt text left
    else if text[right]?.any (!isStructural ·) then tokenAt text right
    else ⟨offset, offset + 1, by omega⟩
  else tokenAt text offset

/-- At most one range; none without an offset inside the text. -/
def locate (text : List Char) : Option Int → List Range
  | none => []
  | some offset =>
    if offset < 0 then []
    else
      match text[offset.toNat]? with
      | some c => [rangeAt text offset.toNat c]
      | none => []

end PayloadCheck.Highlight
