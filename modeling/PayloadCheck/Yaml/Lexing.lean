import PayloadCheck.Yaml.Block
import PayloadCheck.Yaml.Name
import PayloadCheck.Yaml.Plain

namespace PayloadCheck.Yaml

/-- How far a key may extend. -/
def keyLimit : Nat := 1024

/-- A token that may turn out to be a key: how many tokens lie before it, where it starts, and
whether nothing but a key can stand there. -/
structure PendingKey where
  number : Nat
  required : Bool
  index : Nat
  mark : Mark
deriving Repr

/-- An open bracket, and the key that was pending before it. -/
structure OpenBracket where
  square : Bool
  outer : Option PendingKey
deriving Repr

/-- How far a text has been split. The tokens are counted and in reverse order; the indentations of
the open blocks, innermost first, end with the one before the first column. -/
structure Lexing where
  cursor : Cursor
  version : Version
  tokens : List Token
  count : Nat
  indents : List Nat
  brackets : List OpenBracket
  pending : Option PendingKey
  keyAllowed : Bool
deriving Repr

namespace Lexing

/-- The start of a text, where a key may stand. -/
def ofText (text : List Char) : Lexing := ⟨.ofText text, .current, [], 0, [], [], none, true⟩

def inFlow (s : Lexing) : Bool := !s.brackets.isEmpty

/-- The first column inside the innermost block. -/
def innerColumn (s : Lexing) : Nat :=
  match s.indents with
  | [] => 0
  | indent :: _ => indent + 1

def failure (s : Lexing) (fault : Fault) : Failure := .at fault s.cursor.mark

def push (s : Lexing) (token : Token) : Lexing :=
  { s with tokens := token :: s.tokens, count := s.count + 1 }

/-- Adds a token of no extent. -/
def pushHere (s : Lexing) (kind : Token.Kind) : Lexing :=
  s.push ⟨kind, s.cursor.mark, s.cursor.mark⟩

/-- Adds the token that takes the next `length` characters. -/
def take (s : Lexing) (kind : Token.Kind) (length : Nat) : Lexing :=
  let after := s.cursor.skip length
  { s.push ⟨kind, s.cursor.mark, after.mark⟩ with cursor := after }

/-- Inserts tokens before the one with a number. -/
def insertAt (s : Lexing) (number : Nat) (tokens : List Token) : Lexing :=
  let later := s.count - number
  { s with
    tokens := s.tokens.take later ++ tokens.reverse ++ s.tokens.drop later
    count := s.count + tokens.length }

def pendingKeys (s : Lexing) : List PendingKey :=
  s.pending.toList ++ s.brackets.filterMap (·.outer)

/-- Gives up the pending key of the innermost level, if it can be given up. -/
def dropKey (s : Lexing) : Except Failure Lexing :=
  if s.pending.any (·.required) then .error (s.failure .keyWithoutValue)
  else .ok { s with pending := none }

/-- Whether a key can no longer be completed: it lies on an earlier line, or too far back. -/
def isStale (s : Lexing) (key : PendingKey) : Bool :=
  key.mark.line != s.cursor.line || keyLimit < s.cursor.index - key.index

/-- Gives up the keys that can no longer be completed. -/
def dropStale (s : Lexing) : Except Failure Lexing :=
  if s.pendingKeys.any fun key => s.isStale key && key.required then
    .error (s.failure .keyWithoutValue)
  else
    let fresh := fun (key : Option PendingKey) => key.filter (!s.isStale ·)
    .ok { s with
      pending := fresh s.pending
      brackets := s.brackets.map fun bracket => { bracket with outer := fresh bracket.outer } }

/-- Keeps in mind that the next token may be a key. It has to be one where a block mapping goes on
in its column. -/
def saveKey (s : Lexing) : Except Failure Lexing :=
  if s.keyAllowed then
    match s.dropKey with
    | .error failure => .error failure
    | .ok s =>
      let required := !s.inFlow && s.indents.head? == some s.cursor.column
      .ok { s with pending := some ⟨s.count, required, s.cursor.index, s.cursor.mark⟩ }
  else .ok s

/-- Closes the blocks that are indented further than a column. -/
def unwindTo (column : Nat) : (indents : List Nat) → Lexing → Lexing
  | [], s => { s with indents := [] }
  | indent :: outer, s =>
    if column < indent then unwindTo column outer (s.pushHere .blockEnd)
    else { s with indents := indent :: outer }

/-- Closes the blocks that the column of the next token is outside of. -/
def unwind (s : Lexing) : Lexing :=
  if s.inFlow then s else unwindTo s.cursor.column s.indents s

def unwindAll (s : Lexing) : Lexing :=
  if s.inFlow then s
  else { s.indents.foldl (fun s _ => s.pushHere .blockEnd) s with indents := [] }

/-- Whether a block that starts in a column is a new one. -/
def opensBlock (s : Lexing) (column : Nat) : Bool :=
  match s.indents with
  | [] => true
  | indent :: _ => indent < column

/-- Opens a block at the next token, unless the innermost one goes on. -/
def openBlock (s : Lexing) (kind : Token.Kind) : Lexing :=
  if s.opensBlock s.cursor.column then
    { s.pushHere kind with indents := s.cursor.column :: s.indents }
  else s

/-- Moves past spaces, and between brackets past tabs too. -/
def skipBlanks (s : Lexing) : Cursor :=
  s.cursor.skipWhile fun ch => ch == ' ' || (s.inFlow && ch == '\t')

/-- The end of a comment: its line, and the empty lines below. -/
def commentEnd (c : Cursor) : Cursor :=
  let c := (c.skipWhile (!endsLine ·)).next
  (c.breaksTo 0 (c.rest.length + 1)).2

/-- A key may follow on a new line, except between brackets. -/
def newLine (s : Lexing) (c : Cursor) : Lexing :=
  { s with cursor := c, keyAllowed := s.keyAllowed || !s.inFlow }

/-- Moves to the next token. A comment, or a run of blank lines, ends the way earlier and gives a
token of its own. -/
def approach : (fuel : Nat) → Lexing → Lexing × Bool
  | 0, s => (s, false)
  | fuel + 1, s =>
    let c := s.skipBlanks
    let comment : Token := ⟨.comment, c.mark, c.mark⟩
    if c.peek == '#' then ((s.push comment).newLine (commentEnd c), true)
    else
      match c.lineBreak? with
      | none => ({ s with cursor := c }, false)
      | some (_, after) =>
        if after.peek == '\n' then
          let blank : Token := ⟨.comment, after.mark, after.mark⟩
          ((s.push blank).newLine (after.skipWhile fun ch => isBlank ch || isBreak ch), true)
        else approach fuel (s.newLine after)

/-- Moves past what stands before the next token, comments included. -/
def skipComments : (fuel : Nat) → Lexing → Lexing
  | 0, s => s
  | fuel + 1, s =>
    let (after, found) := s.approach (s.cursor.rest.length + 1)
    let after := { after with tokens := s.tokens, count := s.count }
    if found then skipComments fuel after else after

/-- The last token, where it still waits for what follows it: comments that begin on its line do not
change that. -/
def lastToken? : (comments : List Token) → List Token → Option Token
  | _, [] => none
  | comments, token :: rest =>
    if token.kind = .comment then lastToken? (token :: comments) rest
    else if comments.head?.all (·.start.line == token.stop.line) then some token
    else none

/-- Whether a colon ahead marks a value. Between brackets it does so without a blank behind it, except
in a sequence, and right after another such colon. -/
def startsValue (s : Lexing) : Bool :=
  let alone := endsWord (s.cursor.peekAt 1)
  match s.brackets with
  | [] => alone
  | bracket :: _ =>
    if s.version = .former then true
    else if bracket.square then alone
    else if (lastToken? [] s.tokens).any (·.kind = .value) then alone
    else true

def endStream (s : Lexing) : Except Failure Lexing :=
  match s.unwindAll.dropKey with
  | .error failure => .error failure
  | .ok s => .ok ({ s with keyAllowed := false }.pushHere .streamEnd)

def marker (s : Lexing) (kind : Token.Kind) : Except Failure Lexing :=
  match s.unwindAll.dropKey with
  | .error failure => .error failure
  | .ok s => .ok ({ s with keyAllowed := false }.take kind 3)

/-- Reads a directive. A version it declares holds from there on. -/
def directive (s : Lexing) : Except Failure Lexing :=
  match s.unwindAll.dropKey with
  | .error failure => .error failure
  | .ok s =>
    match readDirective s.version s.cursor with
    | .error failure => .error failure
    | .ok (d, after) =>
      let version :=
        match d with
        | .version v => v
        | _ => s.version
      .ok { s.push ⟨.directive d, s.cursor.mark, after.mark⟩ with
        cursor := after, version := version, keyAllowed := false }

/-- Reads an opening bracket, which may start a key. -/
def openBracket (s : Lexing) (square : Bool) : Except Failure Lexing :=
  match s.saveKey with
  | .error failure => .error failure
  | .ok s =>
    let s := { s with
      brackets := ⟨square, s.pending⟩ :: s.brackets, pending := none, keyAllowed := true }
    .ok (s.take (if square then .openSquare else .openCurly) 1)

def closeBracket (s : Lexing) (kind : Token.Kind) : Except Failure Lexing :=
  match s.dropKey with
  | .error failure => .error failure
  | .ok s =>
    let s := { s with
      brackets := s.brackets.tail
      pending := (s.brackets.head?).bind (·.outer)
      keyAllowed := false }
    .ok (s.take kind 1)

def comma (s : Lexing) : Except Failure Lexing :=
  match s.dropKey with
  | .error failure => .error failure
  | .ok s => .ok ({ s with keyAllowed := true }.take .comma 1)

/-- Reads the dash before an entry, which may open a block. -/
def entry (s : Lexing) : Except Failure Lexing :=
  if !s.inFlow && !s.keyAllowed then .error (s.failure .entryNotAllowed)
  else
    let s := if s.inFlow then s else s.openBlock .blockSequence
    match s.dropKey with
    | .error failure => .error failure
    | .ok s => .ok ({ s with keyAllowed := true }.take .entry 1)

/-- Reads the question mark before a key, which may open a block. -/
def explicitKey (s : Lexing) : Except Failure Lexing :=
  if !s.inFlow && !s.keyAllowed then .error (s.failure .keyNotAllowed)
  else
    let s := if s.inFlow then s else s.openBlock .blockMapping
    match s.dropKey with
    | .error failure => .error failure
    | .ok s => .ok ({ s with keyAllowed := !s.inFlow }.take .key 1)

/-- Turns a pending token into a key. It opens a block mapping if it starts a new column. -/
def completeKey (s : Lexing) (key : PendingKey) : Lexing :=
  let token : Token := ⟨.key, key.mark, key.mark⟩
  if !s.inFlow && s.opensBlock key.mark.column then
    { s.insertAt key.number [⟨.blockMapping, key.mark, key.mark⟩, token] with
      indents := key.mark.column :: s.indents }
  else s.insertAt key.number [token]

/-- Reads the colon before a value. Without a pending key the key is explicit or empty. -/
def value (s : Lexing) : Except Failure Lexing :=
  match s.pending with
  | some key =>
    let s := { s with pending := none, keyAllowed := false }.completeKey key
    .ok (s.take .value 1)
  | none =>
    if !s.inFlow && !s.keyAllowed then .error (s.failure .valueNotAllowed)
    else
      let s := if s.inFlow then s else s.openBlock .blockMapping
      .ok ({ s with keyAllowed := !s.inFlow }.take .value 1)

/-- Reads a token that may be a key, or belong to one. -/
def keyToken (s : Lexing) (read : Cursor → Except Failure (Token.Kind × Cursor)) :
    Except Failure Lexing :=
  match s.saveKey with
  | .error failure => .error failure
  | .ok s =>
    match read s.cursor with
    | .error failure => .error failure
    | .ok (kind, after) =>
      .ok { s.push ⟨kind, s.cursor.mark, after.mark⟩ with cursor := after, keyAllowed := false }

/-- Reads a plain scalar, which may be a key; a key may also follow it on a later line. -/
def plain (s : Lexing) : Except Failure Lexing :=
  match s.saveKey with
  | .error failure => .error failure
  | .ok s =>
    let found := readPlain s.version s.inFlow s.innerColumn s.cursor
    .ok { s.push ⟨.scalar .plain found.text, s.cursor.mark, found.stop⟩ with
      cursor := found.rest, keyAllowed := found.fresh }

/-- Reads a block scalar with the blank lines and comments after it. -/
def block (s : Lexing) (isFolded : Bool) : Except Failure Lexing :=
  match s.dropKey with
  | .error failure => .error failure
  | .ok s =>
    match readBlock isFolded s.innerColumn s.cursor with
    | .error failure => .error failure
    | .ok found =>
      let kind := .scalar (if isFolded then .folded else .literal) found.text
      let s := { s.push ⟨kind, s.cursor.mark, found.rest.mark⟩ with
        cursor := found.rest, keyAllowed := true }
      .ok (if found.trails then s.skipComments (s.cursor.rest.length + 1) else s)

def token (s : Lexing) : Except Failure Lexing :=
  let c := s.cursor
  let ch := c.peek
  let alone := endsWord (c.peekAt 1)
  if ch == nul then s.endStream
  else if ch == '%' && c.column == 0 then s.directive
  else if c.column == 0 && c.atMarker then s.marker (if ch == '-' then .documentStart else .documentEnd)
  else if ch == '[' then s.openBracket true
  else if ch == '\x7b' then s.openBracket false
  else if ch == ']' then s.closeBracket .closeSquare
  else if ch == '\x7d' then s.closeBracket .closeCurly
  else if ch == ',' then s.comma
  else if ch == '-' && alone then s.entry
  else if ch == '?' && (s.inFlow || alone) then s.explicitKey
  else if ch == ':' && s.startsValue then s.value
  else if ch == '*' then
    s.keyToken fun c => (readAnchor c).map fun (name, after) => (.alias name, after)
  else if ch == '&' then
    s.keyToken fun c => (readAnchor c).map fun (name, after) => (.anchor name, after)
  else if ch == '!' then
    s.keyToken fun c => (readTag s.version c).map fun (name, after) => (.tag name, after)
  else if (ch == '|' || ch == '>') && !s.inFlow then s.block (ch == '>')
  else if ch == '\'' || ch == '"' then
    s.keyToken fun c => (readQuoted c).map fun (text, after) => (.scalar .quoted text, after)
  else if startsPlain s.version s.inFlow c then s.plain
  else .error (s.failure (.strayCharacter ch))

/-- Whether the end of the text has been read. -/
def isDone (s : Lexing) : Bool := s.tokens.head?.any (·.kind = .streamEnd)

/-- Reads one token, or a comment. -/
def step (s : Lexing) : Except Failure Lexing :=
  let (near, found) := s.approach (s.cursor.rest.length + 1)
  if found then near.dropStale
  else
    match near.dropStale with
    | .error failure => .error failure
    | .ok s =>
      match s.unwind.token with
      | .error failure => .error failure
      | .ok after => if after.isDone then .ok after else after.dropStale

/-- The tokens in their order, comments left out. -/
def proper (tokens : List Token) : List Token := tokens.reverse.filter (·.kind ≠ .comment)

/-- The tokens that are known when a failure is met: one token has to be read ahead, and the token
that a pending key begins with waits for the key to be completed. -/
def known (s : Lexing) : List Token :=
  let count := s.pendingKeys.foldl (fun least key => min least key.number) (s.count - 1)
  proper (s.tokens.drop (s.count - count))

/-- Reads tokens until the end of the text, or to the first failure. -/
def run : (fuel : Nat) → Lexing → TokenStream
  | 0, s => ⟨s.known, none⟩
  | fuel + 1, s =>
    match s.step with
    | .error failure => ⟨s.known, some failure⟩
    | .ok after => if after.isDone then ⟨proper after.tokens, none⟩ else run fuel after

end Lexing

/-- Whether a character may stand in a text. What stands for a surrogate may not. -/
def isAllowed (ch : Char) : Bool :=
  let n := ch.toNat
  n == 0x9 || n == 0xA || n == 0xD || (0x20 ≤ n && n ≤ 0x7E) || n == 0x85 ||
    (0xA0 ≤ n && n ≤ 0xFFFD) || (0x10000 ≤ n && !Text.isUnpaired ch)

/-- The tokens of a text. A byte order mark at its start is skipped. -/
def TokenStream.ofText (text : List Char) : TokenStream :=
  match text.find? (!isAllowed ·) with
  | some ch => ⟨[], some (.malformed (.unprintable ch) none)⟩
  | none =>
    let s := Lexing.ofText text
    let s := if s.cursor.peek == '\uFEFF' then { s with cursor := s.cursor.next } else s
    s.run (text.length + 2)

end PayloadCheck.Yaml
