import PayloadCheck.Json.Value
import PayloadCheck.Number.Integer
import PayloadCheck.Number.Shortest
import PayloadCheck.Text.Printable
import PayloadCheck.Text.Surrogate

namespace PayloadCheck.Json

open Number

/-- Numbers with a fraction as in JSON texts, but for the two names in small letters. -/
def displayFormat : FloatFormat := ⟨"inf", "nan", -3, 16⟩

/-- The lower-case hexadecimal digits of a code point, at least `width` of them. -/
def hexDigits (width n : Nat) : List Char :=
  let digits := Nat.toDigits 16 n
  List.replicate (width - digits.length) '0' ++ digits

/-- A character between quotes of a given kind. What cannot be printed shows its code point. -/
def shown (quote c : Char) : List Char :=
  if c == quote || c == '\\' then ['\\', c]
  else if c == '\t' then ['\\', 't']
  else if c == '\n' then ['\\', 'n']
  else if c == '\r' then ['\\', 'r']
  else if Text.isPrintable c && !Text.isUnpaired c then [c]
  else if Text.unit c < 0x100 then '\\' :: 'x' :: hexDigits 2 (Text.unit c)
  else if Text.unit c < 0x10000 then '\\' :: 'u' :: hexDigits 4 (Text.unit c)
  else '\\' :: 'U' :: hexDigits 8 (Text.unit c)

/-- A string in quotes: double ones if it holds a single quote and no double one. -/
def shownString (s : String) : List Char :=
  let text := s.toList
  let quote := if text.contains '\'' && !text.contains '"' then '"' else '\''
  quote :: text.flatMap (shown quote) ++ [quote]

def separated (items : List (List Char)) : List Char := (items.intersperse [',', ' ']).flatten

mutual

/-- The text of a value inside another, unless an integer in it has too many digits. -/
def show? : Value → Option (List Char)
  | .null => some "None".toList
  | .bool b => some (if b then "True".toList else "False".toList)
  | .int n => (text? n).map (·.toList)
  | .float x => some (displayFormat.text x).toList
  | .str s => some (shownString s)
  | .arr vs => (showElements? vs).map fun items => '[' :: separated items ++ [']']
  | .obj members => (showMembers? members).map fun items => '\x7b' :: separated items ++ ['\x7d']

def showElements? : List Value → Option (List (List Char))
  | [] => some []
  | v :: vs =>
    match show? v, showElements? vs with
    | some item, some items => some (item :: items)
    | _, _ => none

def showMembers? : List (String × Value) → Option (List (List Char))
  | [] => some []
  | (name, v) :: rest =>
    match show? v, showMembers? rest with
    | some item, some items => some ((shownString name ++ ':' :: ' ' :: item) :: items)
    | _, _ => none

end

/-- The text of a value, unless an integer in it has too many digits. -/
def display? : Value → Option String
  | .str s => some s
  | v => (show? v).map String.ofList

end PayloadCheck.Json
