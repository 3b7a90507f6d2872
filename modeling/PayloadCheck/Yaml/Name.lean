import PayloadCheck.Text.Utf8
import PayloadCheck.Yaml.Quoted

namespace PayloadCheck.Yaml

/-- The letters and digits of ASCII, and two signs that join words. -/
def isWordCharacter (ch : Char) : Bool :=
  ('0' ≤ ch && ch ≤ '9') || ('A' ≤ ch && ch ≤ 'Z') || ('a' ≤ ch && ch ≤ 'z') || ch == '-' || ch == '_'

/-- What the name of an anchor is made of: all that can be seen, brackets and commas excepted. -/
def isAnchorCharacter (ch : Char) : Bool :=
  let n := ch.toNat
  ((0x21 ≤ n && n ≤ 0x7E) || (0xA0 ≤ n && n ≤ 0xFFFD && n != 0xFEFF) || 0x10000 ≤ n) &&
    !(ch == ',' || ch == '[' || ch == ']' || ch == '\x7b' || ch == '\x7d')

/-- What may follow the name of an anchor. -/
def endsAnchor (ch : Char) : Bool :=
  endsName ch || ch == '\t' ||
    ['?', ':', ',', '[', ']', '\x7b', '\x7d', '%', '@', '\x60'].contains ch

/-- Reads the name of an anchor or alias, from its indicator on. -/
def readAnchor (c : Cursor) : Except Failure (List Char × Cursor) :=
  let c := c.next
  let name := c.run isAnchorCharacter
  let after := c.skip name.length
  if name.isEmpty || !endsAnchor after.peek then .error (.at (.anchorName after.peek) after.mark)
  else .ok (name, after)

/-- What the address of a tag is made of; the number sign only in a newer text. -/
def isAddressCharacter (v : Version) (ch : Char) : Bool :=
  isWordCharacter ch || ";/?:@&=+$,.!~*'()[]%".toList.contains ch || (v.isNewer && ch == '#')

/-- The text with its percent escapes read as UTF-8, each run of escapes on its own. A failure is the
place of the first character that is out of order: behind the percent sign where two hexadecimal
digits do not follow, or where the run begins that is not UTF-8. Here `place` is the place ahead,
`start` that of the run of escapes that `pending` holds the octets of. -/
def unescapeFrom (place start : Nat) (pending : List Nat) : List Char → Except Nat (List Char)
  | '%' :: high :: low :: rest =>
    if Text.isHexDigit high && Text.isHexDigit low then
      unescapeFrom (place + 3) start (pending ++ [Text.hexNumber [high, low]]) rest
    else .error (place + 1)
  | ch :: rest =>
    if ch == '%' then .error (place + 1)
    else
      match Text.Utf8.decode pending with
      | .error _ => .error start
      | .ok text => (unescapeFrom (place + 1) (place + 1) [] rest).map (text ++ ch :: ·)
  | [] =>
    match Text.Utf8.decode pending with
    | .error _ => .error start
    | .ok text => .ok text

/-- The text with its percent escapes read, or how many characters are in order before the first
that is not. -/
def unescapeAddress (text : List Char) : Except Nat (List Char) := unescapeFrom 0 0 [] text

/-- Reads the address of a tag, which is not empty. -/
def readAddress (v : Version) (c : Cursor) : Except Failure (List Char × Cursor) :=
  let text := c.run (isAddressCharacter v)
  let after := c.skip text.length
  if text.isEmpty then .error (.at (.tagAddress after.peek) after.mark)
  else
    match unescapeAddress text with
    | .ok address => .ok (address, after)
    | .error place => .error (.at .tagEscape (c.skip place).mark)

/-- Reads the handle of a tag: an exclamation mark, or a word between two of them. -/
def readHandle (c : Cursor) : Except Failure (List Char × Cursor) :=
  if c.peek != '!' then .error (.at (.tagHandle c.peek) c.mark)
  else if c.peekAt 1 == ' ' then .ok (['!'], c.next)
  else
    let word := c.next.run isWordCharacter
    let after := c.next.skip word.length
    if after.peek != '!' then .error (.at (.tagHandle after.peek) after.mark)
    else .ok ('!' :: word ++ ['!'], after.next)

/-- Whether the word ahead holds an exclamation mark. -/
def hasSecondMark (c : Cursor) : Bool := ((c.rest.takeWhile (!endsName ·))).contains '!'

/-- Reads the name of a tag from the last of the exclamation marks that it begins with. -/
def readTagFrom (v : Version) (handle : List Char) (c : Cursor) :
    Except Failure (TagName × Cursor) :=
  let follower := c.peekAt 1
  if follower == '<' then
    match readAddress v (c.skip 2) with
    | .error failure => .error failure
    | .ok (address, after) =>
      if after.peek == '>' then .ok (⟨none, address⟩, after.next)
      else .error (.at (.tagRest after.peek) after.mark)
  else if endsWord follower then .ok (⟨none, handle⟩, c.next)
  else if hasSecondMark c.next then
    match readHandle c with
    | .error failure => .error failure
    | .ok (name, after) => (readAddress v after).map fun (rest, after) => (⟨some name, rest⟩, after)
  else (readAddress v c.next).map fun (rest, after) => (⟨some handle, rest⟩, after)

def readTag (v : Version) (c : Cursor) : Except Failure (TagName × Cursor) :=
  let named :=
    if c.peekAt 1 == '!' then readTagFrom v ['!', '!'] c.next else readTagFrom v ['!'] c
  match named with
  | .error failure => .error failure
  | .ok (name, after) =>
    if endsName after.peek then .ok (name, after)
    else .error (.at (.tagRest after.peek) after.mark)

def readNumber (c : Cursor) : Except Failure (Nat × Cursor) :=
  let digits := c.run Text.isAsciiDigit
  if digits.isEmpty then .error (.at (.versionNumber c.peek) c.mark)
  else .ok (Text.digitsValue digits, c.skip digits.length)

def readVersion (c : Cursor) : Except Failure (Directive × Cursor) :=
  match readNumber (c.skipWhile (· == ' ')) with
  | .error failure => .error failure
  | .ok (major, c) =>
    if c.peek != '.' then .error (.at (.versionNumber c.peek) c.mark)
    else
      match readNumber c.next with
      | .error failure => .error failure
      | .ok (minor, c) =>
        if endsName c.peek then .ok (.version ⟨major, minor⟩, c)
        else .error (.at (.versionNumber c.peek) c.mark)

/-- Reads the handle that a directive declares, and the address it stands for. -/
def readDeclaration (v : Version) (c : Cursor) : Except Failure (Directive × Cursor) :=
  match readHandle (c.skipWhile (· == ' ')) with
  | .error failure => .error failure
  | .ok (name, c) =>
    if c.peek != ' ' then .error (.at (.directiveRest c.peek) c.mark)
    else
      match readAddress v (c.skipWhile (· == ' ')) with
      | .error failure => .error failure
      | .ok (address, c) =>
        if endsName c.peek then .ok (.handle name address, c)
        else .error (.at (.directiveRest c.peek) c.mark)

/-- Reads a directive with the rest of its line. -/
def readDirective (v : Version) (c : Cursor) : Except Failure (Directive × Cursor) :=
  let c := c.next
  let name := c.run fun ch => isWordCharacter ch || ch == ':' || ch == '.'
  let after := c.skip name.length
  if name.isEmpty || !endsName after.peek then .error (.at (.directiveName after.peek) after.mark)
  else
    let body :=
      if name == "YAML".toList then readVersion after
      else if name == "TAG".toList then readDeclaration v after
      else .ok (.other, after.skipWhile (!endsLine ·))
    match body with
    | .error failure => .error failure
    | .ok (directive, c) =>
      let c := c.skipWhile (· == ' ')
      let c := if c.peek == '#' then c.skipWhile (!endsLine ·) else c
      if endsLine c.peek then .ok (directive, (c.lineBreak?.map (·.2)).getD c)
      else .error (.at (.directiveRest c.peek) c.mark)

end PayloadCheck.Yaml
