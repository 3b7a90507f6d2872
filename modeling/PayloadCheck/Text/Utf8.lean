namespace PayloadCheck.Text.Utf8

/-- Why octets hold no character. -/
inductive Flaw
  | invalidStart
  | invalidContinuation
  | unexpectedEnd
deriving DecidableEq, Repr

/-- A character, or a run of octets that holds none. -/
inductive Piece
  | char (c : Char)
  | flawed (flaw : Flaw) (octets : List Nat)
deriving DecidableEq, Repr

/-- What follows the first octet of a character: how many octets, and the range of the first of
them. -/
structure Lead where
  count : Nat
  low : Nat
  high : Nat

/-- What follows a first octet, if it can begin a character of several octets. -/
def lead? (octet : Nat) : Option Lead :=
  if octet < 0xC2 then none
  else if octet < 0xE0 then some ⟨1, 0x80, 0xBF⟩
  else if octet < 0xF0 then
    some ⟨2, if octet = 0xE0 then 0xA0 else 0x80, if octet = 0xED then 0x9F else 0xBF⟩
  else if octet < 0xF5 then
    some ⟨3, if octet = 0xF0 then 0x90 else 0x80, if octet = 0xF4 then 0x8F else 0xBF⟩
  else none

/-- The octets that continue a character, and whether all are there. -/
def continuation : (count low high : Nat) → List Nat → List Nat × Option Flaw
  | 0, _, _, _ => ([], none)
  | _ + 1, _, _, [] => ([], some .unexpectedEnd)
  | count + 1, low, high, octet :: rest =>
    if low ≤ octet && octet ≤ high then
      let (others, flaw) := continuation count 0x80 0xBF rest
      (octet :: others, flaw)
    else ([], some .invalidContinuation)

/-- The code point that an octet and its continuation stand for. -/
def codePoint (first : Nat) (others : List Nat) : Nat :=
  others.foldl (fun n octet => n * 64 + octet % 64) (first % Nat.pow 2 (6 - others.length))

/-- The first piece of some octets, and how many of them it takes besides the first. -/
def piece (first : Nat) (rest : List Nat) : Piece × Nat :=
  if first < 0x80 then (.char (Char.ofNat first), 0)
  else
    match lead? first with
    | none => (.flawed .invalidStart [first], 0)
    | some lead =>
      match continuation lead.count lead.low lead.high rest with
      | (others, none) => (.char (Char.ofNat (codePoint first others)), others.length)
      | (others, some flaw) => (.flawed flaw (first :: others), others.length)

/-- The pieces of some octets; the first `pending` of them belong to the piece before. -/
def pieces : (pending : Nat) → List Nat → List Piece
  | _, [] => []
  | pending + 1, _ :: rest => pieces pending rest
  | 0, octet :: rest =>
    let (head, count) := piece octet rest
    head :: pieces count rest

/-- A flaw, where it begins, and the octets it extends over. -/
structure Fault where
  flaw : Flaw
  offset : Nat
  octets : List Nat
deriving DecidableEq, Repr

def encodeChar (c : Char) : List Nat :=
  let n := c.toNat
  if n < 0x80 then [n]
  else if n < 0x800 then [0xC0 + n / 64, 0x80 + n % 64]
  else if n < 0x10000 then [0xE0 + n / 4096, 0x80 + n / 64 % 64, 0x80 + n % 64]
  else [0xF0 + n / 262144, 0x80 + n / 4096 % 64, 0x80 + n / 64 % 64, 0x80 + n % 64]

def encode (text : List Char) : List Nat := text.flatMap encodeChar

/-- The characters of pieces without a flaw; the offset counts the octets before. -/
def characters : (offset : Nat) → List Piece → Except Fault (List Char)
  | _, [] => .ok []
  | offset, .char c :: rest => (characters (offset + (encodeChar c).length) rest).map (c :: ·)
  | offset, .flawed flaw octets :: _ => .error ⟨flaw, offset, octets⟩

def decode (octets : List Nat) : Except Fault (List Char) := characters 0 (pieces 0 octets)

/-- The text that octets hold, with a replacement character for each flaw. -/
def decodeLossy (octets : List Nat) : List Char :=
  (pieces 0 octets).map fun
    | .char c => c
    | .flawed _ _ => '\uFFFD'

def Flaw.message : Flaw → String
  | .invalidStart => "invalid start byte"
  | .invalidContinuation => "invalid continuation byte"
  | .unexpectedEnd => "unexpected end of data"

/-- An octet in two hexadecimal digits. -/
def octetText (octet : Nat) : String :=
  "0x" ++ String.ofList [Nat.digitChar (octet / 16), Nat.digitChar (octet % 16)]

def Fault.message (fault : Fault) : String :=
  let place :=
    match fault.octets with
    | [octet] => "byte " ++ octetText octet ++ " in position " ++ toString fault.offset
    | octets =>
      "bytes in position " ++ toString fault.offset ++ "-" ++
        toString (fault.offset + octets.length - 1)
  "'utf-8' codec can't decode " ++ place ++ ": " ++ fault.flaw.message

end PayloadCheck.Text.Utf8
