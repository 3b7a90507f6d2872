import PayloadCheck.Text.Blank

namespace PayloadCheck.Document

def isSeparator (c : Char) : Bool :=
  c == '[' || c == ']' || c == '\x7b' || c == '\x7d' || c == ','

/-- What a node may stand behind without a space. -/
def opensNode (c : Char) : Bool := c == '\n' || c == '[' || c == '\x7b' || c == ','

/-- What a node may stand behind after a space. -/
def isIndicator (c : Char) : Bool := c == ':' || c == '?' || c == '-'

def isSpacing (c : Char) : Bool := c == ' ' || c == '\t'

def isNameCharacter (c : Char) : Bool := !Text.isBlank c && !isSeparator c

/-- Whether a node may start at the next character. -/
inductive Opening
  | closed
  | afterSpace
  | open
deriving DecidableEq, Repr

/-- Whether a node may start after a character. -/
def Opening.after (c : Char) (before : Opening) : Opening :=
  if opensNode c then .open
  else if isIndicator c then .afterSpace
  else if isSpacing c then if before = .closed then .closed else .open
  else .closed

/-- Whether an anchor stands in a text. -/
def holdsAnchorFrom : Opening → List Char → Bool
  | _, [] => false
  | opening, c :: rest =>
    (opening = .open && c == '&' && (rest.head?).any isNameCharacter) ||
      holdsAnchorFrom (opening.after c) rest

/-- Whether an anchor stands in a text; a node may start at its first character. -/
def holdsAnchor (text : List Char) : Bool := holdsAnchorFrom .open text

end PayloadCheck.Document
