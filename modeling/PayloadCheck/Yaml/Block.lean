import PayloadCheck.Yaml.Token

namespace PayloadCheck.Yaml

/-- What becomes of the breaks at the end of a block. -/
inductive Chomping
  | clip
  | strip
  | keep
deriving DecidableEq, Repr

/-- The header of a block: what becomes of its last breaks, and how much further than its parent it
is indented, where that is said. -/
structure BlockHeader where
  chomping : Chomping
  increment : Option Nat
deriving DecidableEq, Repr

def chomping? : Char → Option Chomping
  | '+' => some .keep
  | '-' => some .strip
  | _ => none

/-- Reads the digit of an indentation, which is not zero. -/
def readIncrement (c : Cursor) : Except Failure (Option Nat × Cursor) :=
  let ch := c.peek
  if ch == '0' then .error (.at .indentationOfZero c.mark)
  else if '1' ≤ ch && ch ≤ '9' then .ok (some (ch.toNat - '0'.toNat), c.next)
  else .ok (none, c)

/-- Reads the two indicators of a header, in any order. -/
def readIndicators (c : Cursor) : Except Failure (BlockHeader × Cursor) :=
  match chomping? c.peek with
  | some chomping =>
    (readIncrement c.next).map fun (increment, c) => (⟨chomping, increment⟩, c)
  | none =>
    match readIncrement c with
    | .error failure => .error failure
    | .ok (none, c) => .ok (⟨.clip, none⟩, c)
    | .ok (some increment, c) =>
      match chomping? c.peek with
      | some chomping => .ok (⟨chomping, some increment⟩, c.next)
      | none => .ok (⟨.clip, some increment⟩, c)

/-- Reads a header, a comment behind it, and its line break. -/
def readHeader (c : Cursor) : Except Failure (BlockHeader × Cursor) :=
  match readIndicators c with
  | .error failure => .error failure
  | .ok (header, c) =>
    if !endsName c.peek then .error (.at (.blockHeader c.peek) c.mark)
    else
      let c := c.skipWhile (· == ' ')
      let c := if c.peek == '#' then c.skipWhile (!endsLine ·) else c
      if !endsLine c.peek then .error (.at (.blockHeader c.peek) c.mark)
      else .ok (header, (c.lineBreak?.map (·.2)).getD c)

/-- What precedes the first line of a block: the breaks of blank lines, the column of the first of
these breaks, and the greatest column that spaces lead to. -/
structure Lead where
  breaks : List Char
  firstColumn : Option Nat
  deepest : Nat
  rest : Cursor

/-- Reads the blank lines before a block. -/
def readLead : (fuel : Nat) → Cursor → Lead
  | 0, c => ⟨[], none, 0, c⟩
  | fuel + 1, c =>
    let spaces := c.run (· == ' ')
    let c := c.skip spaces.length
    let column := if spaces.isEmpty then 0 else c.column
    match c.lineBreak? with
    | none => ⟨[], none, column, c⟩
    | some (ch, after) =>
      let lead := readLead fuel after
      ⟨ch :: lead.breaks, some c.column, max column lead.deepest, lead.rest⟩

/-- The indentation of a block, and the breaks before its first line. Where the header does not say
it, the first line does; it may not lie deeper than the blank lines before. -/
def blockIndent (least : Nat) (header : BlockHeader) (c : Cursor) :
    Except Failure (Nat × List Char × Cursor) :=
  match header.increment with
  | some increment =>
    let indent := max least 1 + increment - 1
    let (breaks, c) := (c.indentTo indent).breaksTo indent (c.rest.length + 1)
    .ok (indent, breaks, c)
  | none =>
    let lead := readLead (c.rest.length + 1) c
    let first := lead.firstColumn.getD 0
    if 0 < first && first < lead.deepest then .error (.malformed .deeperFirstLine none)
    else .ok (max least lead.deepest, lead.breaks, lead.rest)

/-- The lines of a block: its text without the last breaks, the break of the last line, and the
breaks of the blank lines after it. -/
structure BlockLines where
  text : List Char
  last : List Char
  trailing : List Char
  rest : Cursor

/-- Reads the lines of a block that are indented by `indent`, after some blank lines. Where they need
no indentation, a marker ends the block. -/
def blockLines (isFolded isOuter : Bool) (indent : Nat) :
    (fuel : Nat) → (last breaks : List Char) → Cursor → BlockLines
  | 0, last, breaks, c => ⟨[], last, breaks, c⟩
  | fuel + 1, last, breaks, c =>
    if c.column != indent || c.peek == nul then ⟨[], last, breaks, c⟩
    else
      let line := c.run (!endsLine ·)
      let after := c.skip line.length
      let (here, after) :=
        match after.lineBreak? with
        | some (ch, after) => ([ch], after)
        | none => ([], after)
      let (next, after) := (after.indentTo indent).breaksTo indent (after.rest.length + 1)
      if (isOuter && after.column == 0 && after.atMarker) || after.column != indent ||
          after.peek == nul then
        ⟨breaks ++ line, here, next, after⟩
      else
        let fold := isFolded && here == ['\n'] && !isBlank c.peek && !isBlank after.peek
        let joint := if !fold then here else if next.isEmpty then [' '] else []
        let others := blockLines isFolded isOuter indent fuel here next after
        { others with text := breaks ++ line ++ joint ++ others.text }

/-- The text of a block, and whether blank lines after it are no part of it. -/
def BlockLines.finish (lines : BlockLines) : Chomping → List Char × Bool
  | .keep => (lines.text ++ lines.last ++ lines.trailing, false)
  | .clip => (lines.text ++ lines.last, !lines.trailing.isEmpty)
  | .strip => (lines.text, !lines.trailing.isEmpty)

/-- A block as read, and whether blank lines follow that are no part of it. -/
structure BlockText where
  text : List Char
  rest : Cursor
  trails : Bool

/-- Reads a block whose lines are indented by at least `least`. -/
def readBlock (isFolded : Bool) (least : Nat) (c : Cursor) : Except Failure BlockText :=
  match readHeader c.next with
  | .error failure => .error failure
  | .ok (header, c) =>
    match blockIndent least header c with
    | .error failure => .error failure
    | .ok (indent, breaks, c) =>
      let isOuter := least == 0 && header.increment.isNone
      let lines := blockLines isFolded isOuter indent (c.rest.length + 1) [] breaks c
      let (text, trails) := lines.finish header.chomping
      .ok ⟨text, lines.rest, trails⟩

end PayloadCheck.Yaml
