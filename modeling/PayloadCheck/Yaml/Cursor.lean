namespace PayloadCheck.Yaml

/-- A line and a column, both counted from zero. -/
structure Mark where
  line : Nat
  column : Nat
deriving DecidableEq, Repr, Inhabited

/-- What is left of a text, and where it stands in the whole. -/
structure Cursor where
  rest : List Char
  index : Nat
  mark : Mark
deriving DecidableEq, Repr, Inhabited

/-- The character that stands for the end of a text. -/
def nul : Char := '\x00'

def isBlank (ch : Char) : Bool := ch == ' ' || ch == '\t'

/-- The line breaks, and the two separators that break a line as well. -/
def isBreak (ch : Char) : Bool :=
  ch == '\n' || ch == '\r' || ch == '\u0085' || ch == '\u2028' || ch == '\u2029'

/-- A line break proper, or the end of the text. -/
def endsLine (ch : Char) : Bool := ch == '\n' || ch == '\r' || ch == '\u0085' || ch == nul

/-- What may follow an indicator that stands on its own. -/
def endsWord (ch : Char) : Bool := endsLine ch || isBlank ch

/-- What may follow a name or a header: a space, a break of any kind, or the end. -/
def endsName (ch : Char) : Bool := ch == ' ' || isBreak ch || ch == nul

namespace Cursor

def ofText (text : List Char) : Cursor := ⟨text, 0, ⟨0, 0⟩⟩

def line (c : Cursor) : Nat := c.mark.line

def column (c : Cursor) : Nat := c.mark.column

def peek (c : Cursor) : Char := c.rest.headD nul

/-- The character that stands `n` places further on. -/
def peekAt (c : Cursor) (n : Nat) : Char := (c.rest.drop n).headD nul

/-- Moves past one character. A line ends at a line feed and at a carriage return without one; a
byte order mark takes no column. -/
def next (c : Cursor) : Cursor :=
  match c.rest with
  | [] => c
  | ch :: rest =>
    let mark : Mark :=
      if ch == '\n' || (ch == '\r' && rest.headD nul != '\n') then ⟨c.line + 1, 0⟩
      else if ch == '\uFEFF' then c.mark
      else ⟨c.line, c.column + 1⟩
    ⟨rest, c.index + 1, mark⟩

def skip (c : Cursor) : Nat → Cursor
  | 0 => c
  | n + 1 => c.next.skip n

/-- The characters ahead as long as they pass a test. -/
def run (c : Cursor) (passes : Char → Bool) : List Char := c.rest.takeWhile passes

def skipWhile (c : Cursor) (passes : Char → Bool) : Cursor := c.skip (c.run passes).length

/-- Moves past the spaces before a column. -/
def indentTo (c : Cursor) (column : Nat) : Cursor :=
  c.skip (min (column - c.column) (c.run (· == ' ')).length)

/-- Reads a break. The two separators stand for themselves, and every other break, one of two
characters too, for a line feed. -/
def lineBreak? (c : Cursor) : Option (Char × Cursor) :=
  match c.rest with
  | '\r' :: '\n' :: _ => some ('\n', c.skip 2)
  | ch :: _ =>
    if ch == '\u2028' || ch == '\u2029' then some (ch, c.next)
    else if isBreak ch then some ('\n', c.next)
    else none
  | [] => none

/-- Whether three characters that start or end a document stand ahead, on their own. -/
def atMarker (c : Cursor) : Bool :=
  (['-', '-', '-'].isPrefixOf c.rest || ['.', '.', '.'].isPrefixOf c.rest) && endsWord (c.peekAt 3)

/-- Reads breaks, with as many spaces after each as lie before a column. -/
def breaksTo (column : Nat) : (fuel : Nat) → Cursor → List Char × Cursor
  | 0, c => ([], c)
  | fuel + 1, c =>
    match c.lineBreak? with
    | none => ([], c)
    | some (ch, after) =>
      let (others, rest) := breaksTo column fuel (after.indentTo column)
      (ch :: others, rest)

end Cursor

end PayloadCheck.Yaml
