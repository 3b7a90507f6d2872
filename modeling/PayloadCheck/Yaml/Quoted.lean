import PayloadCheck.Text.Surrogate
import PayloadCheck.Yaml.Token

namespace PayloadCheck.Yaml

/-- The character that a short escape stands for. -/
def shortEscape? : Char → Option Char
  | '0' => some '\x00'
  | 'a' => some '\x07'
  | 'b' => some '\x08'
  | 't' => some '\t'
  | '\t' => some '\t'
  | 'n' => some '\n'
  | 'v' => some '\x0b'
  | 'f' => some '\x0c'
  | 'r' => some '\r'
  | 'e' => some '\x1b'
  | ' ' => some ' '
  | '"' => some '"'
  | '/' => some '/'
  | '\\' => some '\\'
  | 'N' => some '\u0085'
  | '_' => some '\u00A0'
  | 'L' => some '\u2028'
  | 'P' => some '\u2029'
  | _ => none

/-- How many hexadecimal digits a long escape has. -/
def escapeWidth? : Char → Option Nat
  | 'x' => some 2
  | 'u' => some 4
  | 'U' => some 8
  | _ => none

/-- A character that stands for itself in quotes of both kinds. -/
def isOrdinary (ch : Char) : Bool :=
  !(isBlank ch || isBreak ch || ch == '\'' || ch == '"' || ch == '\\' || ch == nul)

/-- Reads the breaks of blank lines. No document may end or start between them. -/
def quotedBreaks : (fuel : Nat) → Cursor → Except Failure (List Char × Cursor)
  | 0, c => .ok ([], c)
  | fuel + 1, c =>
    if c.atMarker then .error (.at .markerInQuote c.mark)
    else
      let c := c.skipWhile isBlank
      match c.lineBreak? with
      | none => .ok ([], c)
      | some (ch, after) =>
        match quotedBreaks fuel after with
        | .ok (others, rest) => .ok (ch :: others, rest)
        | .error failure => .error failure

/-- Reads what stands between two words in quotes: blanks, or the fold of a line break. -/
def quotedGap (c : Cursor) : Except Failure (List Char × Cursor) :=
  let blanks := c.run isBlank
  let c := c.skip blanks.length
  match c.lineBreak? with
  | some (ch, after) =>
    match quotedBreaks (after.rest.length + 1) after with
    | .ok (breaks, rest) =>
      let first := if ch != '\n' then [ch] else if breaks.isEmpty then [' '] else []
      .ok (first ++ breaks, rest)
    | .error failure => .error failure
  | none => if c.peek == nul then .error (.at .unclosedQuote c.mark) else .ok (blanks, c)

/-- The second half of a character that is written as a pair of surrogates. -/
def lowSurrogate? (rest : List Char) : Option Nat :=
  let digits := (rest.drop 2).take 4
  if ['\\', 'u'].isPrefixOf rest && digits.length == 4 && digits.all Text.isHexDigit &&
      0xDC00 ≤ Text.hexNumber digits && Text.hexNumber digits < 0xE000 then
    some (Text.hexNumber digits)
  else none

def readDigits (width : Nat) (c : Cursor) : Except Failure (List Char × Cursor) :=
  let digits := c.rest.take width
  let code := Text.hexNumber digits
  if digits.length != width || !digits.all Text.isHexDigit then .error (.at (.shortEscape width) c.mark)
  else if 0x10FFFF < code then .error (.badValue .codePoint)
  else
    let after := c.skip width
    if width == 4 && 0xD800 ≤ code && code < 0xDC00 then
      match lowSurrogate? after.rest with
      | some low =>
        .ok ([Char.ofNat (0x10000 + (code - 0xD800) * 0x400 + (low - 0xDC00))], after.skip 6)
      | none => .ok ([Text.ofCode code], after)
    else .ok ([Text.ofCode code], after)

/-- Reads an escape from the character after its backslash on. An escaped line break vanishes
together with the indentation of the next line. -/
def readEscape (c : Cursor) : Except Failure (List Char × Cursor) :=
  match shortEscape? c.peek, escapeWidth? c.peek with
  | some ch, _ => .ok ([ch], c.next)
  | none, some width => readDigits width c.next
  | none, none =>
    match c.lineBreak? with
    | some (_, after) => quotedBreaks (after.rest.length + 1) after
    | none => .error (.at (.unknownEscape c.peek) c.mark)

/-- Reads one piece of a text in quotes; none at the closing quote. -/
def quotedPiece (closing : Char) (c : Cursor) : Except Failure (Option (List Char × Cursor)) :=
  let ch := c.peek
  let isDouble := closing == '"'
  if isOrdinary ch then
    let piece := c.run isOrdinary
    .ok (some (piece, c.skip piece.length))
  else if !isDouble && ch == '\'' && c.peekAt 1 == '\'' then .ok (some (['\''], c.skip 2))
  else if ch == closing then .ok none
  else if isDouble && ch == '\\' then (readEscape c.next).map some
  else if ch == '\'' || ch == '"' || ch == '\\' then .ok (some ([ch], c.next))
  else (quotedGap c).map some

/-- Reads a text in quotes and its closing quote. -/
def quotedRest (closing : Char) : (fuel : Nat) → Cursor → Except Failure (List Char × Cursor)
  | 0, c => .error (.at .unclosedQuote c.mark)
  | fuel + 1, c =>
    match quotedPiece closing c with
    | .error failure => .error failure
    | .ok none => .ok ([], c.next)
    | .ok (some (piece, after)) =>
      match quotedRest closing fuel after with
      | .ok (others, rest) => .ok (piece ++ others, rest)
      | .error failure => .error failure

def readQuoted (c : Cursor) : Except Failure (List Char × Cursor) :=
  quotedRest c.peek (c.rest.length + 1) c.next

end PayloadCheck.Yaml
