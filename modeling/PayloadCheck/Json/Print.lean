import PayloadCheck.Json.Value
import PayloadCheck.Number.Integer
import PayloadCheck.Number.Shortest
import PayloadCheck.Text.Surrogate

namespace PayloadCheck.Json

open Number

/-- Numbers with a fraction are positional from `0.0001` up to sixteen digits before the point. -/
def floatFormat : FloatFormat := ⟨"Infinity", "NaN", -3, 16⟩

/-- The lower-case hexadecimal digit of a value below sixteen. -/
def hexDigit (n : Nat) : Char :=
  if n < 10 then Char.ofNat ('0'.toNat + n) else Char.ofNat ('a'.toNat + n - 10)

/-- The numeric escape of a sixteen-bit unit. -/
def unitEscape (code : Nat) : List Char :=
  ['\\', 'u', hexDigit (code / 4096 % 16), hexDigit (code / 256 % 16), hexDigit (code / 16 % 16),
    hexDigit (code % 16)]

/-- A character inside quotes. What is no printable ASCII character is escaped, beyond the basic
plane as a pair of surrogates; a surrogate outside a pair is escaped as it is. -/
def escaped (c : Char) : List Char :=
  if c = '"' then ['\\', '"']
  else if c = '\\' then ['\\', '\\']
  else if c = '\n' then ['\\', 'n']
  else if c = '\r' then ['\\', 'r']
  else if c = '\t' then ['\\', 't']
  else if c = '\x08' then ['\\', 'b']
  else if c = '\x0c' then ['\\', 'f']
  else if 0x20 ≤ c.toNat && c.toNat ≤ 0x7E then [c]
  else if Text.unit c < 0x10000 then unitEscape (Text.unit c)
  else
    let offset := c.toNat - 0x10000
    unitEscape (0xD800 + offset / 0x400) ++ unitEscape (0xDC00 + offset % 0x400)

def quoted (text : List Char) : List Char := '"' :: text.flatMap escaped ++ ['"']

/-- A line break and the indentation of a level, two blanks each. -/
def newline (level : Nat) : List Char := '\n' :: List.replicate (2 * level) ' '

/-- Items between brackets, each on a line of its own one level further in; none at all leaves the
brackets together. -/
def block (opening closing : Char) (level : Nat) : List (List Char) → List Char
  | [] => [opening, closing]
  | item :: rest =>
    opening :: newline (level + 1) ++ item ++
      rest.flatMap (fun next => ',' :: newline (level + 1) ++ next) ++ newline level ++ [closing]

mutual

/-- The text of a value at a level of indentation, unless an integer in it has too many digits. -/
def render? : (level : Nat) → Value → Option (List Char)
  | _, .null => some "null".toList
  | _, .bool b => some (if b then "true".toList else "false".toList)
  | _, .int n => (text? n).map (·.toList)
  | _, .float x => some (floatFormat.text x).toList
  | _, .str s => some (quoted s.toList)
  | level, .arr vs => (renderElements? (level + 1) vs).map (block '[' ']' level)
  | level, .obj members => (renderMembers? (level + 1) members).map (block '\x7b' '\x7d' level)

def renderElements? : (level : Nat) → List Value → Option (List (List Char))
  | _, [] => some []
  | level, v :: vs =>
    match render? level v, renderElements? level vs with
    | some item, some items => some (item :: items)
    | _, _ => none

/-- The texts of the members of an object, each with its name. -/
def renderMembers? : (level : Nat) → List (String × Value) → Option (List (List Char))
  | _, [] => some []
  | level, (name, v) :: rest =>
    match render? level v, renderMembers? level rest with
    | some item, some items => some ((quoted name.toList ++ ':' :: ' ' :: item) :: items)
    | _, _ => none

end

end PayloadCheck.Json
