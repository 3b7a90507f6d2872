import PayloadCheck.Json.Value
import PayloadCheck.Number.Integer
import PayloadCheck.Text.Surrogate

namespace PayloadCheck.Json

open Number

/-- What is wrong at a place of a malformed text. -/
inductive Fault
  | byteOrderMark
  | value
  | propertyName
  | colon
  | comma
  | extraData
  | controlCharacter
  | unterminatedString
  | escape
  | unicodeEscape
deriving DecidableEq, Repr

def Fault.message : Fault → String
  | .byteOrderMark => "Unexpected UTF-8 BOM (decode using utf-8-sig)"
  | .value => "Expecting value"
  | .propertyName => "Expecting property name enclosed in double quotes"
  | .colon => "Expecting ':' delimiter"
  | .comma => "Expecting ',' delimiter"
  | .extraData => "Extra data"
  | .controlCharacter => "Invalid control character at"
  | .unterminatedString => "Unterminated string starting at"
  | .escape => "Invalid \\escape"
  | .unicodeEscape => "Invalid \\uXXXX escape"

/-- The names of numbers that are not finite. They are no JSON. -/
inductive Constant
  | nan
  | infinity
  | negativeInfinity
deriving DecidableEq, Repr

def Constant.name : Constant → String
  | .nan => "NaN"
  | .infinity => "Infinity"
  | .negativeInfinity => "-Infinity"

def Constant.number : Constant → Binary64
  | .nan => .nan
  | .infinity => .infinite false
  | .negativeInfinity => .infinite true

inductive Container
  | array
  | object
deriving DecidableEq, Repr

def Container.name : Container → String
  | .array => "array"
  | .object => "object"

/-- Why a text is refused, with the text from the offending place on. -/
inductive Refusal
  | malformed (fault : Fault) (rest : List Char)
  | constant (name : Constant) (rest : List Char)
  | tooManyDigits (digits : Nat)
  | tooDeep (container : Container)
deriving DecidableEq, Repr

/-- What a reader admits: how deep containers may nest, and whether the names of numbers that are
not finite count as values. -/
structure Admission where
  depth : Nat
  constants : Bool
deriving Repr

abbrev Reader (α : Type) := List Char → Except Refusal (α × List Char)

def isSpace (c : Char) : Bool := c == ' ' || c == '\t' || c == '\n' || c == '\r'

def skipSpace (text : List Char) : List Char := text.dropWhile isSpace

/-- The number that four hexadecimal digits write. -/
def hexQuad? (a b c d : Char) : Option Nat := do
  let a ← Text.hexValue? a
  let b ← Text.hexValue? b
  let c ← Text.hexValue? c
  let d ← Text.hexValue? d
  return ((a * 16 + b) * 16 + c) * 16 + d

def shortEscape? : Char → Option Char
  | '"' => some '"'
  | '\\' => some '\\'
  | '/' => some '/'
  | 'b' => some '\x08'
  | 'f' => some '\x0c'
  | 'n' => some '\n'
  | 'r' => some '\r'
  | 't' => some '\t'
  | _ => none

/-- A piece of a string: a character, or the sixteen-bit unit of a numeric escape. -/
inductive Piece
  | char (c : Char)
  | unit (code : Nat)
deriving DecidableEq, Repr

/-- The text that pieces spell: a high surrogate and the low one after it make one character. -/
def spell : List Piece → List Char
  | [] => []
  | .char c :: rest => c :: spell rest
  | [.unit code] => [Text.ofCode code]
  | .unit high :: .char c :: rest => Text.ofCode high :: c :: spell rest
  | .unit high :: .unit low :: rest =>
    if 0xD800 ≤ high && high ≤ 0xDBFF && 0xDC00 ≤ low && low ≤ 0xDFFF then
      Char.ofNat (0x10000 + (high - 0xD800) * 0x400 + (low - 0xDC00)) :: spell rest
    else Text.ofCode high :: spell (.unit low :: rest)

/-- The pieces of a string up to its closing quote. The text from the opening quote on is what an
unterminated string reports. A numeric escape needs four digits and some text behind them. -/
def pieces (opening : List Char) : Reader (List Piece)
  | [] => .error (.malformed .unterminatedString opening)
  | '"' :: rest => .ok ([], rest)
  | ['\\'] => .error (.malformed .unterminatedString opening)
  | '\\' :: 'u' :: rest =>
    match rest with
    | a :: b :: c :: d :: e :: rest' =>
      match hexQuad? a b c d with
      | some code =>
        match pieces opening (e :: rest') with
        | .ok (found, after) => .ok (.unit code :: found, after)
        | .error refusal => .error refusal
      | none => .error (.malformed .unicodeEscape ('u' :: rest))
    | _ => .error (.malformed .unicodeEscape ('u' :: rest))
  | '\\' :: letter :: rest =>
    match shortEscape? letter with
    | some c =>
      match pieces opening rest with
      | .ok (found, after) => .ok (.char c :: found, after)
      | .error refusal => .error refusal
    | none => .error (.malformed .escape ('\\' :: letter :: rest))
  | c :: rest =>
    if c.toNat < 0x20 then .error (.malformed .controlCharacter (c :: rest))
    else
      match pieces opening rest with
      | .ok (found, after) => .ok (.char c :: found, after)
      | .error refusal => .error refusal

/-- The string whose opening quote has been taken. -/
def stringBody : Reader String := fun text =>
  match pieces ('"' :: text) text with
  | .ok (found, rest) => .ok (String.ofList (spell found), rest)
  | .error refusal => .error refusal

/-- The parts of a number as written. -/
structure Numeral where
  negative : Bool
  whole : List Char
  fraction : Option (List Char)
  exponent : Option (Bool × List Char)
deriving DecidableEq, Repr

/-- The digits before the point: a lone zero, or a run that starts with another digit. -/
def wholePart? : List Char → Option (List Char × List Char)
  | '0' :: rest => some (['0'], rest)
  | text =>
    match text.takeWhile Text.isAsciiDigit with
    | [] => none
    | digits => some (digits, text.dropWhile Text.isAsciiDigit)

/-- The digits behind a point; a point without digits belongs to no number. -/
def fractionPart : List Char → Option (List Char) × List Char
  | '.' :: rest =>
    match rest.takeWhile Text.isAsciiDigit with
    | [] => (none, '.' :: rest)
    | digits => (some digits, rest.dropWhile Text.isAsciiDigit)
  | text => (none, text)

/-- The sign and digits of an exponent; a mark without digits belongs to no number. -/
def exponentPart (text : List Char) : Option (Bool × List Char) × List Char :=
  match text with
  | mark :: rest =>
    if mark == 'e' || mark == 'E' then
      let (negative, unsigned) :=
        match rest with
        | '-' :: r => (true, r)
        | '+' :: r => (false, r)
        | r => (false, r)
      match unsigned.takeWhile Text.isAsciiDigit with
      | [] => (none, text)
      | digits => (some (negative, digits), unsigned.dropWhile Text.isAsciiDigit)
    else (none, text)
  | [] => (none, [])

/-- The number at the front of a text. -/
def numeral? (text : List Char) : Option (Numeral × List Char) :=
  let (negative, unsigned) :=
    match text with
    | '-' :: rest => (true, rest)
    | rest => (false, rest)
  match wholePart? unsigned with
  | none => none
  | some (whole, rest) =>
    let (fraction, rest) := fractionPart rest
    let (exponent, rest) := exponentPart rest
    some (⟨negative, whole, fraction, exponent⟩, rest)

/-- The double nearest to a decimal text given by its parts. -/
def decimalNumber (negative : Bool) (whole fraction : List Char) (exponent : Option (Bool × List Char)) :
    Binary64 :=
  let shift : Int :=
    match exponent with
    | some (minus, digits) =>
      let size : Int := Text.digitsValue digits
      if minus then -size else size
    | none => 0
  Binary64.ofDecimal negative (Text.digitsValue (whole ++ fraction)) (shift - fraction.length)

/-- The value of a number: an integer when it has neither fraction nor exponent. -/
def Numeral.value (n : Numeral) : Except Refusal Value :=
  match n.fraction, n.exponent with
  | none, none =>
    if digitLimit < n.whole.length then .error (.tooManyDigits n.whole.length)
    else
      let size : Int := Text.digitsValue n.whole
      .ok (.int (if n.negative then -size else size))
  | fraction, exponent =>
    .ok (.float (decimalNumber n.negative n.whole (fraction.getD []) exponent))

/-- The number at the front of a text, which lacks a value if there is none. -/
def number : Reader Value := fun text =>
  match numeral? text with
  | none => .error (.malformed .value text)
  | some (n, rest) =>
    match n.value with
    | .ok v => .ok (v, rest)
    | .error refusal => .error refusal

/-- A value that is no container: a literal name, a constant, or a number. -/
def plain (constants : Bool) : Reader Value
  | 'n' :: 'u' :: 'l' :: 'l' :: rest => .ok (.null, rest)
  | 't' :: 'r' :: 'u' :: 'e' :: rest => .ok (.bool true, rest)
  | 'f' :: 'a' :: 'l' :: 's' :: 'e' :: rest => .ok (.bool false, rest)
  | text@('N' :: 'a' :: 'N' :: rest) => constant .nan text rest
  | text@('I' :: 'n' :: 'f' :: 'i' :: 'n' :: 'i' :: 't' :: 'y' :: rest) => constant .infinity text rest
  | text@('-' :: 'I' :: 'n' :: 'f' :: 'i' :: 'n' :: 'i' :: 't' :: 'y' :: rest) =>
    constant .negativeInfinity text rest
  | text => number text
where
  /-- A constant is a value where constants are admitted, and refused elsewhere. -/
  constant (name : Constant) (text rest : List Char) : Except Refusal (Value × List Char) :=
    if constants then .ok (.float name.number, rest) else .error (.constant name text)

/-- The elements of an array from the first one on, and its closing bracket. Each element takes a
character at least, so the length of the text bounds their number. -/
def elements (item : Reader Value) : Nat → Reader (List Value)
  | 0, text => .error (.malformed .value text)
  | bound + 1, text =>
    match item text with
    | .error refusal => .error refusal
    | .ok (v, rest) =>
      match skipSpace rest with
      | ']' :: after => .ok ([v], after)
      | ',' :: after =>
        match elements item bound (skipSpace after) with
        | .ok (vs, final) => .ok (v :: vs, final)
        | .error refusal => .error refusal
      | other => .error (.malformed .comma other)

/-- The name of a member, the colon and the value behind it. -/
def member (item : Reader Value) : Reader (String × Value)
  | '"' :: text =>
    match stringBody text with
    | .error refusal => .error refusal
    | .ok (name, rest) =>
      match skipSpace rest with
      | ':' :: after =>
        match item (skipSpace after) with
        | .ok (v, final) => .ok ((name, v), final)
        | .error refusal => .error refusal
      | other => .error (.malformed .colon other)
  | text => .error (.malformed .propertyName text)

/-- The members of an object from the first one on, and its closing brace. -/
def members (item : Reader Value) : Nat → Reader (List (String × Value))
  | 0, text => .error (.malformed .propertyName text)
  | bound + 1, text =>
    match member item text with
    | .error refusal => .error refusal
    | .ok (entry, rest) =>
      match skipSpace rest with
      | '\x7d' :: after => .ok ([entry], after)
      | ',' :: after =>
        match members item bound (skipSpace after) with
        | .ok (entries, final) => .ok (entry :: entries, final)
        | .error refusal => .error refusal
      | other => .error (.malformed .comma other)

/-- The array whose opening bracket has been taken. -/
def array (item : Reader Value) : Reader Value := fun text =>
  match skipSpace text with
  | ']' :: rest => .ok (.arr [], rest)
  | start =>
    match elements item start.length start with
    | .ok (vs, rest) => .ok (.arr vs, rest)
    | .error refusal => .error refusal

/-- The object whose opening brace has been taken. Of members with one name the last value counts,
at the place of the first. -/
def object (item : Reader Value) : Reader Value := fun text =>
  match skipSpace text with
  | '\x7d' :: rest => .ok (.obj [], rest)
  | start =>
    match members item start.length start with
    | .ok (entries, rest) => .ok (.obj (distinct entries), rest)
    | .error refusal => .error refusal

/-- A value, given the reader of the values nested in it; without one, containers are too deep. -/
def valueWith (constants : Bool) (nested : Option (Reader Value)) : Reader Value
  | '"' :: text =>
    match stringBody text with
    | .ok (s, rest) => .ok (.str s, rest)
    | .error refusal => .error refusal
  | '[' :: text =>
    match nested with
    | some item => array item text
    | none => .error (.tooDeep .array)
  | '\x7b' :: text =>
    match nested with
    | some item => object item text
    | none => .error (.tooDeep .object)
  | text => plain constants text

/-- A value whose containers nest at most `depth` deep. -/
def value (constants : Bool) : (depth : Nat) → Reader Value
  | 0 => valueWith constants none
  | depth + 1 => valueWith constants (some (value constants depth))

def decode (admission : Admission) (text : List Char) : Except Refusal Value :=
  match text with
  | '\uFEFF' :: _ => .error (.malformed .byteOrderMark text)
  | _ =>
    match value admission.constants admission.depth (skipSpace text) with
    | .error refusal => .error refusal
    | .ok (v, rest) =>
      match skipSpace rest with
      | [] => .ok v
      | extra => .error (.malformed .extraData extra)

end PayloadCheck.Json
