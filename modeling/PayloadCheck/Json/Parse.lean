import PayloadCheck.Diagnosis
import PayloadCheck.Json.Decode
import PayloadCheck.Room

namespace PayloadCheck.Json

open Number

/-- How deep the containers of a text may nest: each takes a call. -/
def nestingLimit : Nat := standardRoom

/-- The capital, small and historic forms of the letters of the word "position". -/
def positionLetters : List (List Char) :=
  [['p', 'P'], ['o', 'O'], ['s', 'S', '\u017F'], ['i', 'I', '\u0131', '\u0130'], ['t', 'T'],
    ['i', 'I', '\u0131', '\u0130'], ['o', 'O'], ['n', 'N']]

/-- The text after a word at its front, each letter in any of its forms. -/
def afterWord? : (letters : List (List Char)) → List Char → Option (List Char)
  | [], text => some text
  | _ :: _, [] => none
  | forms :: letters, c :: rest => if forms.contains c then afterWord? letters rest else none

/-- The text after the first occurrence of a word. -/
def findAfter? (letters : List (List Char)) : List Char → Option (List Char)
  | [] => afterWord? letters []
  | c :: rest =>
    match afterWord? letters (c :: rest) with
    | some after => some after
    | none => findAfter? letters rest

def firstDigits (text : List Char) : List Char :=
  (text.dropWhile (!Text.isDecimalDigit ·)).takeWhile Text.isDecimalDigit

/-- The digits after the first word "position" that has any behind it. -/
def positionDigits? (message : List Char) : Option (List Char) :=
  match findAfter? positionLetters message with
  | none => none
  | some after =>
    match firstDigits after with
    | [] => none
    | digits => some digits

/-- The digits of the first "(char N)". -/
def charDigits? : List Char → Option (List Char)
  | [] => none
  | c :: rest =>
    let found :=
      match c :: rest with
      | '(' :: 'c' :: 'h' :: 'a' :: 'r' :: ' ' :: after =>
        match after.takeWhile Text.isDecimalDigit, after.dropWhile Text.isDecimalDigit with
        | d :: digits, ')' :: _ => some (d :: digits)
        | _, _ => none
      | _ => none
    match found with
    | some digits => some digits
    | none => charDigits? rest

/-- The offset that a message names: the first number after the word "position", or else the one in
"(char N)". A number with too many digits cannot be read. -/
def offsetInMessage (message : List Char) : Except NumeralFault (Option Int) :=
  match (positionDigits? message).or (charDigits? message) with
  | none => .ok none
  | some digits =>
    match numeral digits with
    | .ok n => .ok (some n)
    | .error fault => .error fault

/-- Where a scan for a bare token stands. -/
inductive Quoting
  | outside
  | inside
  | escaped
deriving DecidableEq, Repr

/-- The offset of the first occurrence of a token outside quotes. -/
def bareTokenFrom? (token : List Char) : Quoting → List Char → Option Nat
  | _, [] => none
  | .escaped, _ :: rest => (bareTokenFrom? token .inside rest).map (· + 1)
  | .inside, c :: rest =>
    let next := if c = '\\' then .escaped else if c = '"' then .outside else .inside
    (bareTokenFrom? token next rest).map (· + 1)
  | .outside, c :: rest =>
    if c = '"' then (bareTokenFrom? token .inside rest).map (· + 1)
    else if token.isPrefixOf (c :: rest) then some 0
    else (bareTokenFrom? token .outside rest).map (· + 1)

def bareToken? (text token : List Char) : Option Nat := bareTokenFrom? token .outside text

/-- The character at an offset; a negative one counts from the end. -/
def charAt? (text : List Char) (offset : Int) : Option Char :=
  if 0 ≤ offset then text[offset.toNat]?
  else if 0 ≤ offset + text.length then text[(offset + text.length).toNat]?
  else none

/-- The first of the next `count` offsets from `offset` on that holds no white space. -/
def skipSpaceAt (text : List Char) : (count : Nat) → (offset : Int) → Int
  | 0, offset => offset
  | count + 1, offset =>
    if offset < text.length && (charAt? text offset).any isSpace then
      skipSpaceAt text count (offset + 1)
    else offset

/-- Moves an offset at a trailing comma to the closing bracket behind it; any other offset stays. -/
def pastTrailingComma (text : List Char) (offset : Int) : Int :=
  if (text.length : Int) ≤ offset || charAt? text offset ≠ some ',' then offset
  else
    let after := skipSpaceAt text (2 * text.length) (offset + 1)
    if after < text.length && (charAt? text after).any (fun c => c == '\x7d' || c == ']') then after
    else offset

/-- The offset of the text from the offending place on. -/
def offsetOf (text rest : List Char) : Nat := text.length - rest.length

/-- The line, column and offset as a message spells them. -/
def whereText (text : List Char) (offset : Nat) : String :=
  let position := Text.position text offset
  "line " ++ toString position.line ++ " column " ++ toString position.column ++ " (char " ++
    toString offset ++ ")"

namespace Refusal

def message (text : List Char) : Refusal → String
  | .malformed fault rest => fault.message ++ ": " ++ whereText text (offsetOf text rest)
  | .constant name _ => "Unexpected token '" ++ name.name ++ "': not a valid JSON value"
  | .tooManyDigits digits => tooManyDigitsMessage digits
  | .tooDeep container =>
    "maximum recursion depth exceeded while decoding a JSON " ++ container.name ++
      " from a unicode string"

/-- The offset of the error: that of the offending place; for a constant, that of its first
occurrence outside strings; and for the limits, what the message itself names. -/
def offset? (text : List Char) : Refusal → Option Int
  | .malformed _ rest => some (offsetOf text rest)
  | .constant name _ => (bareToken? text name.name.toList).map (↑·)
  | refusal =>
    match offsetInMessage (refusal.message text).toList with
    | .ok offset => offset
    | .error _ => none

def diagnosis (text : List Char) (refusal : Refusal) : Diagnosis :=
  .failure text (refusal.message text) (refusal.offset? text)

end Refusal

/-- Parses a text. A text of blanks alone is valid and stands for null. -/
def parse (text : List Char) : Diagnosis × Value :=
  if Text.allBlank text then (.valid, .null)
  else
    match decode ⟨nestingLimit, false⟩ text with
    | .ok v => (.valid, v)
    | .error refusal => (refusal.diagnosis text, .null)

def diagnose (text : List Char) : Diagnosis := (parse text).1

end PayloadCheck.Json
