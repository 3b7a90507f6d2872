import PayloadCheck.Text.Digit
import PayloadCheck.Yaml.Fault

namespace PayloadCheck.Yaml

/-- A time of day, to the millionth of a second, on a clock that may be so many minutes ahead. -/
structure Clock where
  hour : Nat
  minute : Nat
  second : Nat
  micro : Nat
  ahead : Option Int
deriving DecidableEq, Repr

structure Timestamp where
  year : Nat
  month : Nat
  day : Nat
  clock : Option Clock
deriving DecidableEq, Repr

namespace Timestamp

/-- Reads a number of one or two digits. -/
def shortNumber? : List Char → Option (Nat × List Char)
  | a :: b :: rest =>
    if Text.isAsciiDigit a then
      if Text.isAsciiDigit b then some (Text.digitsValue [a, b], rest)
      else some (Text.digitsValue [a], b :: rest)
    else none
  | [a] => if Text.isAsciiDigit a then some (Text.digitsValue [a], []) else none
  | [] => none

def fullNumber? (width : Nat) (text : List Char) : Option (Nat × List Char) :=
  let digits := text.take width
  if digits.length == width && digits.all Text.isAsciiDigit then
    some (Text.digitsValue digits, text.drop width)
  else none

def skip? (ch : Char) : List Char → Option (List Char)
  | [] => none
  | head :: rest => if head == ch then some rest else none

/-- The millionths that a fraction amounts to; the seventh digit rounds. -/
def micros (fraction : List Char) : Nat :=
  let digits := fraction.take 6
  let value := Text.digitsValue (digits ++ List.replicate (6 - digits.length) '0')
  if (fraction[6]?).any ('4' < ·) then value + 1 else value

/-- Reads the fraction of a second, if there is one. -/
def fraction : List Char → Nat × List Char
  | '.' :: rest => (micros (rest.takeWhile Text.isAsciiDigit), rest.dropWhile Text.isAsciiDigit)
  | rest => (0, rest)

/-- The minutes that the offset of a clock amounts to. -/
def offset? (text : List Char) : Option Int := do
  let (hours, rest) ← shortNumber? text
  match rest with
  | [] => some (60 * hours)
  | ':' :: rest =>
    let (minutes, rest) ← fullNumber? 2 rest
    if rest.isEmpty then some (60 * hours + minutes) else none
  | _ => none

/-- The offset that the rest of a timestamp gives; none if nothing is left. -/
def ahead? (text : List Char) : Option (Option Int) :=
  match text.dropWhile isBlank with
  | ['Z'] => some (some 0)
  | '+' :: rest => (offset? rest).map some
  | '-' :: rest => (offset? rest).map fun minutes => some (-minutes)
  | _ => if text.isEmpty then some none else none

/-- Reads a time of day after the sign or the blanks before it. -/
def clock? (text : List Char) : Option Clock := do
  let rest ←
    match text with
    | 'T' :: rest => some rest
    | 't' :: rest => some rest
    | ch :: rest => if isBlank ch then some (rest.dropWhile isBlank) else none
    | [] => none
  let (hour, rest) ← shortNumber? rest
  let (minute, rest) ← (skip? ':' rest).bind (fullNumber? 2)
  let (second, rest) ← (skip? ':' rest).bind (fullNumber? 2)
  let (micro, rest) := fraction rest
  let ahead ← ahead? rest
  some ⟨hour, minute, second, micro, ahead⟩

/-- The timestamp that a text writes; whether there is such a time is not asked. -/
def ofText? (text : List Char) : Option Timestamp := do
  let (year, rest) ← fullNumber? 4 text
  let (month, rest) ← (skip? '-' rest).bind shortNumber?
  let (day, rest) ← (skip? '-' rest).bind shortNumber?
  if rest.isEmpty then some ⟨year, month, day, none⟩
  else some ⟨year, month, day, some (← clock? rest)⟩

/-- Whether a text is a timestamp without saying so: a date alone has two digits for month and
day. -/
def isWritten (text : List Char) : Bool :=
  match ofText? text with
  | none => false
  | some stamp => stamp.clock.isSome || text.length == 10

def isLeap (year : Nat) : Bool := year % 4 == 0 && (year % 100 != 0 || year % 400 == 0)

def monthLength (year month : Nat) : Nat :=
  if month == 2 then if isLeap year then 29 else 28
  else if month == 4 || month == 6 || month == 9 || month == 11 then 30
  else 31

def dateFault? (s : Timestamp) : Option ValueFault :=
  if s.year == 0 then some (.year s.year)
  else if s.month == 0 || 12 < s.month then some .month
  else if s.day == 0 || monthLength s.year s.month < s.day then some .day
  else none

/-- What is wrong with a time of day, its offset aside. -/
def Clock.fault? (c : Clock) : Option ValueFault :=
  if 23 < c.hour then some .hour
  else if 59 < c.minute then some .minute
  else if 59 < c.second then some .second
  else none

/-- What is wrong with the offset of a clock: it is less than a day either way. -/
def Clock.offsetFault? (c : Clock) : Option ValueFault :=
  c.ahead.bind fun minutes => if 1440 ≤ minutes.natAbs then some (.clockOffset minutes) else none

def fault? (s : Timestamp) : Option ValueFault :=
  (s.clock.bind Clock.offsetFault?).or (s.dateFault?.or (s.clock.bind Clock.fault?))

def nextDay (s : Timestamp) : Timestamp :=
  if s.day < monthLength s.year s.month then { s with day := s.day + 1 }
  else if s.month < 12 then { s with month := s.month + 1, day := 1 }
  else { s with year := s.year + 1, month := 1, day := 1 }

/-- Carries a full million of millionths over to the second, and on. -/
def carry (s : Timestamp) : Timestamp :=
  match s.clock with
  | none => s
  | some c =>
    if c.micro < 1000000 then s
    else
      let c := { c with micro := 0 }
      if c.second < 59 then { s with clock := some { c with second := c.second + 1 } }
      else if c.minute < 59 then
        { s with clock := some { c with minute := c.minute + 1, second := 0 } }
      else if c.hour < 23 then
        { s with clock := some { c with hour := c.hour + 1, minute := 0, second := 0 } }
      else { s.nextDay with clock := some { c with hour := 0, minute := 0, second := 0 } }

/-- The timestamp itself, if there is such a time. -/
def check (s : Timestamp) : Except ValueFault Timestamp :=
  match s.fault? with
  | some fault => .error fault
  | none => .ok s.carry

/-- A number with zeros before it. -/
def padded (width n : Nat) : List Char :=
  let digits := Nat.toDigits 10 n
  List.replicate (width - digits.length) '0' ++ digits

/-- The offset of a clock as hours and minutes. -/
def aheadText (minutes : Int) : List Char :=
  (if minutes < 0 then '-' else '+') :: padded 2 (minutes.natAbs / 60) ++ ':' ::
    padded 2 (minutes.natAbs % 60)

def Clock.text (c : Clock) : List Char :=
  padded 2 c.hour ++ ':' :: padded 2 c.minute ++ ':' :: padded 2 c.second ++
    (if c.micro == 0 then [] else '.' :: padded 6 c.micro) ++ (c.ahead.map aheadText).getD []

/-- The text of a timestamp, with a given character before the time of day. -/
def text (between : Char) (s : Timestamp) : List Char :=
  padded 4 s.year ++ '-' :: padded 2 s.month ++ '-' :: padded 2 s.day ++
    ((s.clock.map fun c => between :: Clock.text c).getD [])

end Timestamp

end PayloadCheck.Yaml
