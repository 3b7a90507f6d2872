import PayloadCheck.Yaml.Token

namespace PayloadCheck.Yaml

/-- The characters that no plain text begins with. -/
def indicators : List Char :=
  [nul, ' ', '\t', '\r', '\n', '\u0085', '\u2028', '\u2029', '-', '?', ':', ',', '[', ']', '\x7b',
    '\x7d', '#', '&', '*', '!', '|', '>', '\'', '"', '%', '@', '\x60']

/-- The characters that end a plain text between brackets. -/
def isFlowIndicator (ch : Char) : Bool :=
  ch == ',' || ch == ':' || ch == '?' || ch == '[' || ch == ']' || ch == '\x7b' || ch == '\x7d'

/-- Whether a plain text starts here. A dash, and outside brackets a question mark or a colon, may
begin one that goes on; a current text may also begin with a colon between brackets. -/
def startsPlain (v : Version) (inFlow : Bool) (c : Cursor) : Bool :=
  let ch := c.peek
  let follower := c.peekAt 1
  !indicators.contains ch ||
    (!endsWord follower && (ch == '-' || (!inFlow && (ch == '?' || ch == ':')))) ||
    (v != .former && inFlow && ch == ':' && !isBlank follower)

/-- How many characters of a line belong to a plain text. A colon belongs to it unless it stands at
the end of a word. -/
def plainLength (v : Version) (inFlow : Bool) : List Char → Nat
  | [] => 0
  | ch :: rest =>
    let stops :=
      if ch == ':' then endsWord (rest.headD nul)
      else if ch == '?' && v != .former then false
      else endsWord ch || (inFlow && isFlowIndicator ch)
    if stops then 0 else plainLength v inFlow rest + 1

/-- A text with the place where it ends, and the place where reading goes on; `fresh` tells that
this is on a later line. -/
structure PlainText where
  text : List Char
  stop : Mark
  rest : Cursor
  fresh : Bool
deriving Repr

/-- The breaks of blank lines, and the place of the next character; none before a marker. -/
def blankLines : (fuel : Nat) → Cursor → Option (List Char) × Cursor
  | 0, c => (some [], c)
  | fuel + 1, c =>
    let c := c.skipWhile (· == ' ')
    match c.lineBreak? with
    | none => (some [], c)
    | some (ch, after) =>
      if after.atMarker then (none, after)
      else
        let (others, rest) := blankLines fuel after
        (others.map (ch :: ·), rest)

/-- What stands between two words of a plain text: spaces, or the fold of a line break. -/
structure PlainGap where
  text : List Char
  rest : Cursor
  fresh : Bool

/-- Reads a gap. A single line feed folds to a space, and of several the first is dropped. -/
def plainGap (c : Cursor) : PlainGap :=
  let spaces := c.run (· == ' ')
  let c := c.skip spaces.length
  match c.lineBreak? with
  | none => ⟨spaces, c, false⟩
  | some (ch, after) =>
    if after.atMarker then ⟨[], after, true⟩
    else
      match blankLines (after.rest.length + 1) after with
      | (none, rest) => ⟨[], rest, true⟩
      | (some breaks, rest) =>
        let first := if ch != '\n' then [ch] else if breaks.isEmpty then [' '] else []
        ⟨first ++ breaks, rest, true⟩

/-- Reads the words of a plain text after a gap; where there are none, the text has stopped
before. -/
def plainWords (v : Version) (inFlow : Bool) (indent : Nat) :
    (fuel : Nat) → (stop : Mark) → PlainGap → PlainText
  | 0, stop, gap => ⟨[], stop, gap.rest, gap.fresh⟩
  | fuel + 1, stop, gap =>
    let length := if gap.rest.peek == '#' then 0 else plainLength v inFlow gap.rest.rest
    if length == 0 then ⟨[], stop, gap.rest, gap.fresh⟩
    else
      let words := gap.text ++ gap.rest.rest.take length
      let after := gap.rest.skip length
      let next := plainGap after
      if next.text.isEmpty || (!inFlow && next.rest.column < indent) then
        ⟨words, after.mark, next.rest, next.fresh⟩
      else
        let others := plainWords v inFlow indent fuel after.mark next
        { others with text := words ++ others.text }

/-- Reads a plain text. Outside brackets its later lines are indented by at least `indent`. -/
def readPlain (v : Version) (inFlow : Bool) (indent : Nat) (c : Cursor) : PlainText :=
  plainWords v inFlow indent (c.rest.length + 1) c.mark ⟨[], c, false⟩

end PayloadCheck.Yaml
