import PayloadCheck.Yaml.Lexing
import PayloadCheck.Yaml.ScalarType

namespace PayloadCheck.Yaml

/-- A node. `enclosing` is an alias of a node that it lies in. -/
inductive Node
  | scalar (mark : Mark) (type : NodeType) (anchored : Bool) (text : List Char)
  | sequence (mark : Mark) (type : NodeType) (items : List Node)
  | mapping (mark : Mark) (type : NodeType) (entries : List (Node × Node))
  | enclosing (mark : Mark)
deriving Repr

def Node.mark : Node → Mark
  | .scalar mark _ _ _ => mark
  | .sequence mark _ _ => mark
  | .mapping mark _ _ => mark
  | .enclosing mark => mark

/-- Where a node may stand, which decides on its form: between brackets, in a block, or in a block
where the entries of a sequence may stand in the column of their key. A pair is a mapping of a
single entry between square brackets. -/
inductive Context
  | flow
  | block
  | value
  | pair
deriving DecidableEq, Repr

/-- The tokens that are left, and what has been declared before them. -/
structure Reading where
  stream : TokenStream
  version : Version
  handles : List (List Char × List Char)
  anchors : List (List Char × Node)

/-- A step of reading, which may fail. -/
abbrev Reader (α : Type) := Reading → Except Failure (α × Reading)

namespace Reader

/-- The handles that need no declaration. -/
def standardHandles : List (List Char × List Char) :=
  [(['!'], ['!']), (['!', '!'], NodeType.address)]

protected def pure {α : Type} (a : α) : Reader α := fun s => .ok (a, s)

protected def bind {α β : Type} (step : Reader α) (next : α → Reader β) : Reader β := fun s =>
  match step s with
  | .ok (a, s) => next a s
  | .error failure => .error failure

instance : Monad Reader where
  pure := Reader.pure
  bind := Reader.bind

def fail {α : Type} (failure : Failure) : Reader α := fun _ => .error failure

def state : Reader Reading := fun s => .ok (s, s)

def update (change : Reading → Reading) : Reader Unit := fun s => .ok ((), change s)

/-- The next token. Where the tokens end early, so does the reading. -/
def peek : Reader Token := fun s =>
  match s.stream.tokens with
  | token :: _ => .ok (token, s)
  | [] => .error (s.stream.failure.getD (.malformed .missingNode none))

def advance : Reader Unit :=
  update fun s => { s with stream := { s.stream with tokens := s.stream.tokens.tail } }

/-- Moves past a token of a kind, if it is the next one. -/
def accept (kind : Token.Kind) : Reader Bool := do
  let token ← peek
  if token.kind = kind then
    advance
    return true
  else return false

/-- More steps than tokens are left. -/
def fuel : Reader Nat := fun s => .ok (s.stream.tokens.length + 1, s)

/-- Lets an anchor stand for a node. -/
def remember (anchor : Option (List Char)) (node : Node) : Reader Unit :=
  match anchor with
  | none => pure ()
  | some name => update fun s => { s with anchors := (name, node) :: s.anchors }

def scalarType (tag : Option (List Char)) (style : Style) (text : List Char) : Reader NodeType :=
  if tag = some ['!'] ∨ (tag = none ∧ style = .plain) then fun s =>
    match NodeType.ofPlain? s.version text with
    | some type => .ok (type, s)
    | none => .error (.badValue (.unknownVersion s.version.major s.version.minor))
  else pure ((tag.map NodeType.ofTag).getD .text)

def scalar (mark : Mark) (anchor tag : Option (List Char)) (style : Style) (text : List Char) :
    Reader Node := do
  let type ← scalarType tag style text
  let node := Node.scalar mark type anchor.isSome text
  remember anchor node
  return node

/-- A node that is left out. -/
def empty (mark : Mark) : Reader Node := scalar mark none none .plain []

def fullTag (name : TagName) (mark : Mark) : Reader (List Char) := fun s =>
  match name.handle with
  | none => .ok (name.rest, s)
  | some handle =>
    match s.handles.find? (·.1 = handle) with
    | some (_, address) => .ok (address ++ name.rest, s)
    | none => .error (.at .undefinedHandle mark)

/-- What stands before a node: an anchor, a tag, and the place where the last of them starts. -/
structure Properties where
  anchor : Option (List Char)
  tag : Option (List Char)
  mark : Option Mark

/-- Reads what stands before a node. -/
def properties : Reader Properties := do
  let first ← peek
  match first.kind with
  | .anchor anchor =>
    advance
    let second ← peek
    match second.kind with
    | .tag name =>
      advance
      return ⟨some anchor, some (← fullTag name second.start), some first.start⟩
    | _ => return ⟨some anchor, none, some first.start⟩
  | .tag name =>
    advance
    let second ← peek
    match second.kind with
    | .anchor anchor =>
      advance
      return ⟨some anchor, some (← fullTag name second.start), some second.start⟩
    | _ => return ⟨none, some (← fullTag name first.start), some first.start⟩
  | _ => return ⟨none, none, none⟩

variable (inner : Context → Reader Node)

def blockItems : (fuel : Nat) → Reader (List Node)
  | 0 => fail .tooDeep
  | fuel + 1 => do
    let token ← peek
    match token.kind with
    | .entry =>
      advance
      let next ← peek
      let item ←
        match next.kind with
        | .entry => empty token.stop
        | .blockEnd => empty token.stop
        | _ => inner .block
      return item :: (← blockItems fuel)
    | .blockEnd =>
      advance
      return []
    | _ => fail (.at .unclosedBlock token.start)

/-- Reads the entries of a sequence that stands in the column of its key. -/
def columnItems : (fuel : Nat) → Reader (List Node)
  | 0 => fail .tooDeep
  | fuel + 1 => do
    let token ← peek
    if token.kind = .entry then
      advance
      let next ← peek
      let item ←
        match next.kind with
        | .entry => empty token.stop
        | .key => empty token.stop
        | .value => empty token.stop
        | .blockEnd => empty token.stop
        | _ => inner .block
      return item :: (← columnItems fuel)
    else return []

/-- Reads a node of a block mapping, unless the mapping goes on without it. -/
def blockPart (mark : Mark) : Reader Node := do
  let next ← peek
  match next.kind with
  | .key => empty mark
  | .value => empty mark
  | .blockEnd => empty mark
  | _ => inner .value

/-- Reads the value of a block mapping after its key. -/
def blockValue : Reader Node := do
  let token ← peek
  if token.kind = .value then
    advance
    blockPart inner token.stop
  else empty token.start

/-- Reads the entries of a block mapping. Only a newer text may leave out a key altogether. -/
def blockEntries : (fuel : Nat) → Reader (List (Node × Node))
  | 0 => fail .tooDeep
  | fuel + 1 => do
    let token ← peek
    match token.kind with
    | .key =>
      advance
      let key ← blockPart inner token.stop
      let value ← blockValue inner
      return (key, value) :: (← blockEntries fuel)
    | .blockEnd =>
      advance
      return []
    | kind =>
      if kind = .value && (← state).version.isNewer then
        let key ← empty token.start
        let value ← blockValue inner
        return (key, value) :: (← blockEntries fuel)
      else fail (.at .unclosedBlock token.start)

/-- Moves past the comma before an entry, unless it is the first; false at the closing bracket. -/
def nextEntry (closing : Token.Kind) (mark : Char) (isFirst : Bool) : Reader Bool := do
  let token ← peek
  if token.kind = closing then
    advance
    return false
  else if isFirst then return true
  else if token.kind = .comma then
    advance
    return !(← accept closing)
  else fail (.at (.missingSeparator mark) token.start)

/-- Reads a node between brackets, unless the entry ends without it. -/
def flowPart (closing : Token.Kind) (mark : Mark) : Reader Node := do
  let next ← peek
  if next.kind = closing || next.kind = .comma then empty mark else inner .flow

/-- Reads the value of an entry between brackets after its key. -/
def flowValue (closing : Token.Kind) : Reader Node := do
  let token ← peek
  if token.kind = .value then
    advance
    flowPart inner closing token.stop
  else empty token.start

/-- Reads the key of an entry between brackets; a value may follow without one. -/
def flowKey (closing : Token.Kind) (mark : Mark) : Reader Node := do
  if (← peek).kind = .value then empty mark else flowPart inner closing mark

def squareItems : (fuel : Nat) → (isFirst : Bool) → Reader (List Node)
  | 0, _ => fail .tooDeep
  | fuel + 1, isFirst => do
    if ← nextEntry .closeSquare ']' isFirst then
      let token ← peek
      let item ← inner (if token.kind = .key then .pair else .flow)
      return item :: (← squareItems fuel false)
    else return []

/-- Reads a key and its value between square brackets. -/
def pairEntries : Reader (List (Node × Node)) := do
  let token ← peek
  advance
  let key ← flowKey inner .closeSquare token.stop
  let value ← flowValue inner .closeSquare
  return [(key, value)]

/-- Reads the entries between curly brackets. A node without a value is a key with an empty one. -/
def curlyEntries : (fuel : Nat) → (isFirst : Bool) → Reader (List (Node × Node))
  | 0, _ => fail .tooDeep
  | fuel + 1, isFirst => do
    if ← nextEntry .closeCurly '\x7d' isFirst then
      let token ← peek
      let entry ←
        if token.kind = .key then do
          advance
          let key ← flowKey inner .closeCurly token.stop
          pure (key, ← flowValue inner .closeCurly)
        else if token.kind = .value && (← state).version.isNewer then do
          let key ← empty token.stop
          pure (key, ← flowValue inner .closeCurly)
        else do
          let key ← inner .flow
          pure (key, ← empty (← peek).start)
      return entry :: (← curlyEntries fuel false)
    else return []

def collectionType (tag : Option (List Char)) (untagged : NodeType) : NodeType :=
  match tag with
  | none => untagged
  | some ['!'] => untagged
  | some tag => NodeType.ofTag tag

/-- Reads a collection that starts at a mark, unless it lies too deep. -/
def collection (mark : Mark) (p : Properties) (mayNest : Bool) (read : Reader Node) :
    Reader Node := do
  if !mayNest then fail .beyondDepth
  remember p.anchor (.enclosing mark)
  let node ← read
  remember p.anchor node
  return node

/-- Reads a sequence or mapping in the form that the next token begins; none if it begins none. -/
def form? (mark : Mark) (p : Properties) (context : Context) (kind : Token.Kind) :
    Option (Reader Node) :=
  let sequence (items : Reader (List Node)) : Reader Node :=
    return .sequence mark (collectionType p.tag .sequence) (← items)
  let mapping (entries : Reader (List (Node × Node))) : Reader Node :=
    return .mapping mark (collectionType p.tag .mapping) (← entries)
  let isFlow := context = .flow ∨ context = .pair
  match kind with
  | .entry =>
    if context = .value then some (sequence do columnItems inner (← fuel)) else none
  | .key => if context = .pair then some (mapping (pairEntries inner)) else none
  | .openSquare => some (sequence do advance; squareItems inner (← fuel) true)
  | .openCurly => some (mapping do advance; curlyEntries inner (← fuel) true)
  | .blockSequence =>
    if isFlow then none else some (sequence do advance; blockItems inner (← fuel))
  | .blockMapping =>
    if isFlow then none else some (mapping do advance; blockEntries inner (← fuel))
  | _ => none

/-- Reads a node, given how to read the nodes inside it. -/
def nodeWith (mayNest : Bool) (context : Context) : Reader Node := do
  let first ← peek
  match first.kind with
  | .alias name =>
    advance
    match (← state).anchors.find? (·.1 = name) with
    | some (_, node) => return node
    | none => fail (.at .undefinedAlias first.start)
  | _ =>
    let p ← properties
    let token ← peek
    let mark := p.mark.getD token.start
    match token.kind, form? inner mark p context token.kind with
    | .scalar style text, _ =>
      advance
      scalar mark p.anchor p.tag style text
    | _, some read => collection mark p mayNest read
    | _, none =>
      if p.mark.isSome then scalar mark p.anchor p.tag .plain []
      else fail (.at .missingNode token.start)

end Reader

/-- How deep nodes may lie in one another at all. -/
def nodeNesting : Nat := 300

namespace Reader

/-- Reads a node that may hold as many levels of nodes as the budget says. Collections may lie in one
another up to a depth. -/
def node (depth : Int) : (budget : Nat) → Context → Reader Node
  | 0, _ => fail .tooDeep
  | budget + 1, context =>
    nodeWith (node depth budget) ((nodeNesting - budget : Int) ≤ depth) context

/-- Reads directives; a version or a handle may be declared once. -/
def directives : (fuel : Nat) → (versionGiven : Bool) → Reader Unit
  | 0, _ => fail .tooDeep
  | fuel + 1, versionGiven => do
    let token ← peek
    match token.kind with
    | .directive (.version v) =>
      advance
      if versionGiven then fail (.at .repeatedVersion token.start)
      else if v.major ≠ 1 then fail (.at .incompatibleVersion token.start)
      else
        update fun s => { s with version := v }
        directives fuel true
    | .directive (.handle name address) =>
      advance
      if (← state).handles.any (·.1 = name) then fail (.at .repeatedHandle token.start)
      else
        update fun s => { s with handles := s.handles ++ [(name, address)] }
        directives fuel versionGiven
    | .directive .other =>
      advance
      directives fuel versionGiven
    | _ => return ()

/-- Reads what precedes an explicit document, and its start. -/
def documentStart : Reader Mark := do
  update fun s => { s with handles := [] }
  directives (← fuel) false
  update fun s => { s with handles := s.handles ++ standardHandles }
  let token ← peek
  if token.kind = .documentStart then
    advance
    return token.start
  else fail (.at .missingDocumentStart token.start)

/-- Moves past markers that end a document. -/
def skipEnds : (fuel : Nat) → Reader Unit
  | 0 => return ()
  | fuel + 1 => do if ← accept .documentEnd then skipEnds fuel

/-- Reads the node of the first document; there is none in an empty text. -/
def firstDocument (depth : Int) : Reader (Option Node) := do
  let token ← peek
  match token.kind with
  | .streamEnd => return none
  | .documentStart => explicit
  | .directive _ => explicit
  | _ => return some (← node depth nodeNesting .block)
where
  explicit : Reader (Option Node) := do
    let _ ← documentStart
    let token ← peek
    match token.kind with
    | .streamEnd => return some (← empty token.start)
    | .documentStart => return some (← empty token.start)
    | .documentEnd => return some (← empty token.start)
    | .directive _ => return some (← empty token.start)
    | _ => return some (← node depth nodeNesting .block)

/-- Makes sure that no other document follows. -/
def noMore : Reader Unit := do
  let ending ← peek
  let isMarked ← accept .documentEnd
  if isMarked then
    let next ← peek
    if next.kind ≠ .streamEnd && next.start.line == ending.stop.line then
      fail (.at .contentAfterEnd next.start)
  let version := (← state).version
  let next ← peek
  match next.kind with
  | .streamEnd => return ()
  | .directive _ => another
  | .documentStart => another
  | _ =>
    if isMarked && version ≠ .former then fail (.at .secondDocument next.start)
    else
      skipEnds (← fuel)
      if (← peek).kind ≠ .streamEnd then another
where
  another : Reader Unit := do
    let mark ← documentStart
    fail (.at .secondDocument mark)

end Reader

/-- The node of a text that holds a single document, with the version it is written in. Collections
may nest up to a depth. -/
def Node.ofText (depth : Int) (text : List Char) : Except Failure (Version × Option Node) :=
  let reading : Reader (Option Node) := do
    let root ← Reader.firstDocument depth
    if root.isSome then Reader.noMore
    return root
  match reading ⟨.ofText text, .current, Reader.standardHandles, []⟩ with
  | .ok (root, s) => .ok (s.version, root)
  | .error failure => .error failure

end PayloadCheck.Yaml
