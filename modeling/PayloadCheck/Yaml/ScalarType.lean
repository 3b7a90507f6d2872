import PayloadCheck.Yaml.Timestamp
import PayloadCheck.Yaml.Token

namespace PayloadCheck.Yaml

/-- What a node is to be read as. `merge` and `fallback` are keys with a meaning of their own. -/
inductive NodeType
  | null
  | bool
  | int
  | float
  | timestamp
  | text
  | binary
  | sequence
  | mapping
  | orderedMapping
  | pairs
  | set
  | merge
  | fallback
  | unknown
deriving DecidableEq, Repr

namespace NodeType

/-- The tags of the known types, without the address they share. -/
def names : List (String × NodeType) :=
  [("null", null), ("bool", bool), ("int", int), ("float", float), ("timestamp", timestamp),
    ("str", text), ("binary", binary), ("seq", sequence), ("map", mapping),
    ("omap", orderedMapping), ("pairs", pairs), ("set", set), ("merge", merge),
    ("value", fallback)]

/-- The address of the known types. -/
def address : List Char := "tag:yaml.org,2002:".toList

def ofTag (tag : List Char) : NodeType :=
  if address.isPrefixOf tag then
    let name := tag.drop address.length
    ((names.find? (·.1.toList = name)).map (·.2)).getD unknown
  else unknown

end NodeType

/-- An underscore may stand wherever a digit may, except first. -/
def isDigitOrLine (ch : Char) : Bool := Text.isAsciiDigit ch || ch == '_'

/-- The text after a sign, and whether there is one. -/
def unsigned : List Char → Bool × List Char
  | '-' :: rest => (true, rest)
  | '+' :: rest => (true, rest)
  | rest => (false, rest)

/-- Some characters, all of which pass a test. -/
def isRun (passes : Char → Bool) (text : List Char) : Bool := !text.isEmpty && text.all passes

/-- The digits of an integer with a radix of its own. -/
def isRadixForm : List Char → Bool
  | '0' :: 'b' :: digits => isRun (fun ch => ch == '0' || ch == '1' || ch == '_') digits
  | '0' :: 'x' :: digits => isRun (fun ch => Text.isHexDigit ch || ch == '_') digits
  | _ => false

def isOctalDigit (ch : Char) : Bool := ('0' ≤ ch && ch ≤ '7') || ch == '_'

/-- Groups of at most sixty, each after a colon; the rest is what the groups leave. -/
def sexagesimalRest : List Char → Option (List Char)
  | ':' :: a :: b :: rest =>
    if ('0' ≤ a && a ≤ '5') && Text.isAsciiDigit b then
      if rest.head? == some ':' then sexagesimalRest rest else some rest
    else if Text.isAsciiDigit a then
      if b == ':' then sexagesimalRest (b :: rest) else some (b :: rest)
    else none
  | [':', a] => if Text.isAsciiDigit a then some [] else none
  | _ => none

def writesInt (v : Version) (text : List Char) : Bool :=
  let (isSigned, body) := unsigned text
  let isFirst := isSigned || (body.head?).any Text.isAsciiDigit
  let isNew :=
    match body with
    | '0' :: 'o' :: digits => isRun isOctalDigit digits
    | _ => isRun isDigitOrLine body
  let isOld :=
    isRun isOctalDigit body ||
      ((body.head?).any (fun ch => '1' ≤ ch && ch ≤ '9') &&
        (isRun isDigitOrLine body ||
          sexagesimalRest (body.dropWhile isDigitOrLine) == some []))
  isFirst && (isRadixForm body || if v = .former then isOld else isNew)

/-- What may follow the digits of a number: nothing, or an exponent. -/
def isExponent (signNeeded : Bool) : List Char → Bool
  | [] => true
  | mark :: rest =>
    let (isSigned, digits) := unsigned rest
    (mark == 'e' || mark == 'E') && (isSigned || !signNeeded) && isRun Text.isAsciiDigit digits

/-- Whether a text writes a number with a fraction or an exponent. -/
def writesFloat (v : Version) (text : List Char) : Bool :=
  let (isSigned, body) := unsigned text
  let after := body.dropWhile isDigitOrLine
  match body with
  | [] => false
  | '.' :: rest =>
    [".inf", ".Inf", ".INF"].any (·.toList = body) ||
      (!isSigned && [".nan", ".NaN", ".NAN"].any (·.toList = body)) ||
      ((v != .former || !isSigned) && (rest.head?).any isDigitOrLine &&
        isExponent true (rest.dropWhile isDigitOrLine))
  | first :: _ =>
    Text.isAsciiDigit first &&
      match after with
      | '.' :: rest => isExponent false (rest.dropWhile isDigitOrLine)
      | ':' :: _ =>
        v = .former &&
          match sexagesimalRest after with
          | some ('.' :: rest) => rest.all isDigitOrLine
          | _ => false
      | _ => !after.isEmpty && isExponent false after

/-- The words for the two truth values. -/
def truthWords (v : Version) : List String :=
  ["true", "True", "TRUE", "false", "False", "FALSE"] ++
    if v = .former then
      ["y", "Y", "yes", "Yes", "YES", "n", "N", "no", "No", "NO", "on", "On", "ON", "off", "Off",
        "OFF"]
    else []

/-- The spellings of nothing. -/
def nullWords : List String := ["", "~", "null", "Null", "NULL"]

/-- The type of a plain scalar. Only the current version and the former one say what it is. -/
def NodeType.ofPlain? (v : Version) (text : List Char) : Option NodeType :=
  if v ≠ .current ∧ v ≠ .former then none
  else if (truthWords v).any (·.toList = text) then some .bool
  else if writesFloat v text then some .float
  else if writesInt v text then some .int
  else if text = ['<', '<'] then some .merge
  else if nullWords.any (·.toList = text) then some .null
  else if Timestamp.isWritten text then some .timestamp
  else if text = ['='] then some .fallback
  else some .text

end PayloadCheck.Yaml
