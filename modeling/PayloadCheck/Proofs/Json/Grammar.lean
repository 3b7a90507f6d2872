import Mathlib.Data.Nat.Digits.Defs
import PayloadCheck.Json.Decode

namespace PayloadCheck.Json

open Number

/-- White space between tokens. -/
def Space (w : List Char) : Prop := ∀ c ∈ w, c = ' ' ∨ c = '\t' ∨ c = '\n' ∨ c = '\r'

/-- One digit at least, and nothing else. -/
def Digits (ds : List Char) : Prop := ds ≠ [] ∧ ∀ c ∈ ds, '0' ≤ c ∧ c ≤ '9'

/-- A hexadecimal digit, in either case, and its value. -/
def HexDigit (c : Char) (n : Nat) : Prop :=
  "0123456789abcdef".toList[n]? = some c ∨ "0123456789ABCDEF".toList[n]? = some c

/-- The letters behind a backslash, and the characters that they stand for. -/
def shortEscapes : List (Char × Char) :=
  [('"', '"'), ('\\', '\\'), ('/', '/'), ('b', '\x08'), ('f', '\x0c'), ('n', '\n'), ('r', '\r'),
    ('t', '\t')]

/-- How a piece of a string is written. Quotes, backslashes and control characters need an escape. -/
inductive PieceText : Piece → List Char → Prop
  | plain {c : Char} : 0x20 ≤ c.toNat → c ≠ '"' → c ≠ '\\' → PieceText (.char c) [c]
  | short {letter c : Char} : (letter, c) ∈ shortEscapes → PieceText (.char c) ['\\', letter]
  | numeric {a b c d : Char} {k l m n : Nat} :
      HexDigit a k → HexDigit b l → HexDigit c m → HexDigit d n →
      PieceText (.unit (k * 16 ^ 3 + l * 16 ^ 2 + m * 16 + n)) ['\\', 'u', a, b, c, d]

inductive PiecesText : List Piece → List Char → Prop
  | nil : PiecesText [] []
  | cons {p : Piece} {ps : List Piece} {text rest : List Char} :
      PieceText p text → PiecesText ps rest → PiecesText (p :: ps) (text ++ rest)

inductive StringText : List Piece → List Char → Prop
  | quoted {ps : List Piece} {body : List Char} :
      PiecesText ps body → StringText ps ('"' :: (body ++ ['"']))

/-- A whole number has no leading zero. -/
def WholeText (ds : List Char) : Prop := ds = ['0'] ∨ Digits ds ∧ ds.head? ≠ some '0'

inductive FractionText : Option (List Char) → List Char → Prop
  | absent : FractionText none []
  | present {ds : List Char} : Digits ds → FractionText (some ds) ('.' :: ds)

/-- An exponent is given by its sign, true for minus, and its digits. -/
inductive ExponentText : Option (Bool × List Char) → List Char → Prop
  | absent : ExponentText none []
  | bare {e : Char} {ds : List Char} :
      e = 'e' ∨ e = 'E' → Digits ds → ExponentText (some (false, ds)) (e :: ds)
  | plus {e : Char} {ds : List Char} :
      e = 'e' ∨ e = 'E' → Digits ds → ExponentText (some (false, ds)) (e :: '+' :: ds)
  | minus {e : Char} {ds : List Char} :
      e = 'e' ∨ e = 'E' → Digits ds → ExponentText (some (true, ds)) (e :: '-' :: ds)

def signText (negative : Bool) : List Char := if negative then ['-'] else []

inductive NumberText : Numeral → List Char → Prop
  | parts {negative : Bool} {whole fractionText exponentText : List Char}
      {fraction : Option (List Char)} {exponent : Option (Bool × List Char)} :
      WholeText whole → FractionText fraction fractionText → ExponentText exponent exponentText →
      NumberText ⟨negative, whole, fraction, exponent⟩
        (signText negative ++ (whole ++ (fractionText ++ exponentText)))

/-- A JSON value as it is written, down to the digits of numbers and the escapes of strings. -/
inductive Tree
  | null
  | bool (b : Bool)
  | number (n : Numeral)
  | string (ps : List Piece)
  | array (items : List Tree)
  | object (members : List (List Piece × Tree))

mutual

inductive TreeText : Tree → List Char → Prop
  | null : TreeText .null ['n', 'u', 'l', 'l']
  | true : TreeText (.bool true) ['t', 'r', 'u', 'e']
  | false : TreeText (.bool false) ['f', 'a', 'l', 's', 'e']
  | number {n : Numeral} {text : List Char} : NumberText n text → TreeText (.number n) text
  | string {ps : List Piece} {text : List Char} : StringText ps text → TreeText (.string ps) text
  | emptyArray {w : List Char} : Space w → TreeText (.array []) ('[' :: (w ++ [']']))
  | array {items : List Tree} {body : List Char} :
      ItemsText items body → TreeText (.array items) ('[' :: (body ++ [']']))
  | emptyObject {w : List Char} : Space w → TreeText (.object []) ('\x7b' :: (w ++ ['\x7d']))
  | object {members : List (List Piece × Tree)} {body : List Char} :
      MembersText members body → TreeText (.object members) ('\x7b' :: (body ++ ['\x7d']))

/-- A value and the white space around it. -/
inductive PaddedText : Tree → List Char → Prop
  | padded {t : Tree} {before text behind : List Char} :
      Space before → TreeText t text → Space behind → PaddedText t (before ++ (text ++ behind))

/-- One value or more, with commas between them. -/
inductive ItemsText : List Tree → List Char → Prop
  | one {t : Tree} {text : List Char} : PaddedText t text → ItemsText [t] text
  | more {t : Tree} {ts : List Tree} {text rest : List Char} :
      PaddedText t text → ItemsText ts rest → ItemsText (t :: ts) (text ++ ',' :: rest)

inductive MemberText : List Piece × Tree → List Char → Prop
  | pair {name : List Piece} {t : Tree} {before nameText behind text : List Char} :
      Space before → StringText name nameText → Space behind → PaddedText t text →
      MemberText (name, t) (before ++ (nameText ++ (behind ++ ':' :: text)))

/-- One member or more, with commas between them. -/
inductive MembersText : List (List Piece × Tree) → List Char → Prop
  | one {m : List Piece × Tree} {text : List Char} : MemberText m text → MembersText [m] text
  | more {m : List Piece × Tree} {ms : List (List Piece × Tree)} {text rest : List Char} :
      MemberText m text → MembersText ms rest → MembersText (m :: ms) (text ++ ',' :: rest)

end

def IsHigh (u : Nat) : Prop := 0xD800 ≤ u ∧ u ≤ 0xDBFF

def IsLow (u : Nat) : Prop := 0xDC00 ≤ u ∧ u ≤ 0xDFFF

/-- The text that pieces spell. The units of a surrogate pair make one character; a surrogate outside a
pair is no character, and something of its own stands for it. -/
inductive Spells : List Piece → List Char → Prop
  | nil : Spells [] []
  | char {c : Char} {ps : List Piece} {s : List Char} : Spells ps s → Spells (.char c :: ps) (c :: s)
  | unit {u : Nat} {ps : List Piece} {s : List Char} :
      ¬ IsHigh u → ¬ IsLow u → Spells ps s → Spells (.unit u :: ps) (Char.ofNat u :: s)
  | pair {high low : Nat} {ps : List Piece} {s : List Char} :
      IsHigh high → IsLow low → Spells ps s →
      Spells (.unit high :: .unit low :: ps)
        (Char.ofNat (0x10000 + (high - 0xD800) * 0x400 + (low - 0xDC00)) :: s)
  | lone {u : Nat} {ps : List Piece} {s : List Char} :
      IsHigh u ∨ IsLow u → (IsHigh u → ∀ low, ps.head? = some (.unit low) → ¬ IsLow low) →
      Spells ps s → Spells (.unit u :: ps) (Text.unpaired u :: s)

/-- The number that decimal digits write. -/
def decimal (ds : List Char) : Nat := Nat.ofDigits 10 (ds.reverse.map fun c => c.toNat - '0'.toNat)

def signed (negative : Bool) (n : Nat) : Int := if negative then -n else n

namespace Numeral

/-- A number without fraction and exponent is an integer. -/
def IsInteger (n : Numeral) : Prop := n.fraction = none ∧ n.exponent = none

def fractionDigits (n : Numeral) : List Char := n.fraction.getD []

/-- The power of ten of the last digit. -/
def scale (n : Numeral) : Int :=
  (match n.exponent with
    | some (negative, ds) => signed negative (decimal ds)
    | none => 0) - n.fractionDigits.length

end Numeral

/-- Each name once, at the place where it first occurs, with the value that it has last. -/
structure Keeps (entries kept : List (String × Value)) : Prop where
  names : kept.map (·.1) = (entries.map (·.1)).eraseDups
  values : ∀ entry ∈ kept, lookup? entry.1 entries.reverse = some entry.2

mutual

/-- The value that a tree stands for. A number that is no integer is rounded to a double. -/
inductive Denotes : Tree → Value → Prop
  | null : Denotes .null .null
  | bool {b : Bool} : Denotes (.bool b) (.bool b)
  | integer {n : Numeral} :
      n.IsInteger → Denotes (.number n) (.int (signed n.negative (decimal n.whole)))
  | rounded {n : Numeral} :
      ¬ n.IsInteger →
      Denotes (.number n)
        (.float (Binary64.ofDecimal n.negative (decimal (n.whole ++ n.fractionDigits)) n.scale))
  | string {ps : List Piece} {s : String} : Spells ps s.toList → Denotes (.string ps) (.str s)
  | array {ts : List Tree} {vs : List Value} : DenoteAll ts vs → Denotes (.array ts) (.arr vs)
  | object {ms : List (List Piece × Tree)} {entries kept : List (String × Value)} :
      DenoteEntries ms entries → Keeps entries kept → Denotes (.object ms) (.obj kept)

inductive DenoteAll : List Tree → List Value → Prop
  | nil : DenoteAll [] []
  | cons {t : Tree} {v : Value} {ts : List Tree} {vs : List Value} :
      Denotes t v → DenoteAll ts vs → DenoteAll (t :: ts) (v :: vs)

inductive DenoteEntries : List (List Piece × Tree) → List (String × Value) → Prop
  | nil : DenoteEntries [] []
  | cons {name : List Piece} {t : Tree} {s : String} {v : Value} {ms : List (List Piece × Tree)}
      {entries : List (String × Value)} :
      Spells name s.toList → Denotes t v → DenoteEntries ms entries →
      DenoteEntries ((name, t) :: ms) ((s, v) :: entries)

end

namespace Tree

mutual

/-- How deep arrays and objects nest. -/
def depth : Tree → Nat
  | .array items => 1 + depthOfItems items
  | .object members => 1 + depthOfMembers members
  | _ => 0

def depthOfItems : List Tree → Nat
  | [] => 0
  | t :: ts => max (depth t) (depthOfItems ts)

def depthOfMembers : List (List Piece × Tree) → Nat
  | [] => 0
  | (_, t) :: ms => max (depth t) (depthOfMembers ms)

end

mutual

/-- The numbers at all depths. -/
def numerals : Tree → List Numeral
  | .number n => [n]
  | .array items => numeralsOfItems items
  | .object members => numeralsOfMembers members
  | _ => []

def numeralsOfItems : List Tree → List Numeral
  | [] => []
  | t :: ts => numerals t ++ numeralsOfItems ts

def numeralsOfMembers : List (List Piece × Tree) → List Numeral
  | [] => []
  | (_, t) :: ms => numerals t ++ numeralsOfMembers ms

end

/-- No integer has more digits than are converted. -/
def IntegersFit (t : Tree) : Prop :=
  ∀ n ∈ t.numerals, n.IsInteger → n.whole.length ≤ digitLimit

theorem depthOfItems_le {items : List Tree} {d : Nat} :
    depthOfItems items ≤ d ↔ ∀ t ∈ items, t.depth ≤ d := by
  induction items with
  | nil => simp [depthOfItems]
  | cons t ts ih => simp [depthOfItems, ih]

theorem depthOfMembers_le {members : List (List Piece × Tree)} {d : Nat} :
    depthOfMembers members ≤ d ↔ ∀ m ∈ members, m.2.depth ≤ d := by
  induction members with
  | nil => simp [depthOfMembers]
  | cons m ms ih => simp [depthOfMembers, ih]

theorem integersFit_array {items : List Tree} :
    (array items).IntegersFit ↔ ∀ t ∈ items, t.IntegersFit := by
  unfold IntegersFit
  rw [numerals]
  induction items with
  | nil => simp [numeralsOfItems]
  | cons t ts ih => simp [numeralsOfItems, or_imp, forall_and, ih]

theorem integersFit_object {members : List (List Piece × Tree)} :
    (object members).IntegersFit ↔ ∀ m ∈ members, m.2.IntegersFit := by
  unfold IntegersFit
  rw [numerals]
  induction members with
  | nil => simp [numeralsOfMembers]
  | cons m ms ih => simp [numeralsOfMembers, or_imp, forall_and, ih]

end Tree

end PayloadCheck.Json
