import PayloadCheck.Yaml.Node
import PayloadCheck.Yaml.Numeral

namespace PayloadCheck.Yaml

open Number

/-- What a node holds. `opaqueText` is a scalar of an unknown type, which equals no other. -/
inductive Content
  | null
  | bool (b : Bool)
  | int (n : Int)
  | float (x : Binary64)
  | text (s : List Char)
  | timestamp (t : Timestamp)
  | octets (bytes : List Nat)
  | opaqueText (s : List Char)
  | sequence (items : List Content)
  | mapping (entries : List (Content × Content))
  | pairs (entries : List (Content × Content))
  | set (items : List Content)
  | enclosing
deriving Repr

namespace Content

/-- The integer that a value equals; a truth value counts as zero or one. -/
def whole? : Content → Option Int
  | .int n => some n
  | .bool b => some (if b then 1 else 0)
  | _ => none

mutual

/-- Whether two keys are equal. Numbers compare by value whatever their type. -/
def same : Content → Content → Bool
  | .null, .null => true
  | .text s, .text t => s == t
  | .timestamp s, .timestamp t => s == t
  | .octets s, .octets t => s == t
  | .float .nan, .float .nan => true
  | .float x, .float y => x.same y
  | .float x, other => other.whole?.any x.sameInt
  | other, .float x => other.whole?.any x.sameInt
  | .sequence items, .sequence others => sameItems items others
  | .mapping entries, .mapping others => sameEntries entries others
  | x, y => x.whole?.isSome && x.whole? == y.whole?

def sameItems : List Content → List Content → Bool
  | [], [] => true
  | x :: xs, y :: ys => same x y && sameItems xs ys
  | _, _ => false

def sameEntries : List (Content × Content) → List (Content × Content) → Bool
  | [], [] => true
  | (key, value) :: rest, (other, value') :: rest' =>
    same key other && same value value' && sameEntries rest rest'
  | _, _ => false

end

def hasKey (entries : List (Content × Content)) (key : Content) : Bool :=
  entries.any fun entry => same key entry.1

/-- Whether a value can stand in a key that is a collection. -/
def isAtomic : Content → Bool
  | .sequence _ => false
  | .mapping _ => false
  | .pairs _ => false
  | .set _ => false
  | .enclosing => false
  | _ => true

/-- Whether a value can be a key: a collection can if it holds none. -/
def isKey : Content → Bool
  | .sequence items => items.all isAtomic
  | .mapping entries => entries.all fun (key, value) => key.isAtomic && value.isAtomic
  | .pairs _ => false
  | content => content.isAtomic

def entries : Content → List (Content × Content)
  | .mapping entries => entries
  | _ => []

/-- Adds the entries of a mapping whose keys are not yet there. -/
def mergeInto (own merged : List (Content × Content)) : List (Content × Content) :=
  merged.foldl (fun known entry => if hasKey known entry.1 then known else known ++ [entry]) own

end Content

def Node.failure (node : Node) (fault : Fault) : Failure := .at fault node.mark

/-- The result of reading a scalar. -/
def valueResult {α : Type} (wrap : α → Content) : Except ValueFault α → Except Failure Content
  | .ok a => .ok (wrap a)
  | .error fault => .error (.badValue fault)

/-- The six bits that a letter stands for in text for octets. -/
def sextet? (ch : Char) : Option Nat :=
  if 'A' ≤ ch && ch ≤ 'Z' then some (ch.toNat - 'A'.toNat)
  else if 'a' ≤ ch && ch ≤ 'z' then some (ch.toNat - 'a'.toNat + 26)
  else if '0' ≤ ch && ch ≤ '9' then some (ch.toNat - '0'.toNat + 52)
  else if ch == '+' then some 62
  else if ch == '/' then some 63
  else none

/-- The octets that groups of four sextets make. -/
def octetsOf : List Nat → Option (List Nat)
  | a :: b :: c :: d :: rest =>
    (octetsOf rest).map
      ([a * 4 + b / 16, b % 16 * 16 + c / 4, c % 4 * 64 + d] ++ ·)
  | [a, b, c] => some [a * 4 + b / 16, b % 16 * 16 + c / 4]
  | [a, b] => some [a * 4 + b / 16]
  | [_] => none
  | [] => some []

/-- The octets that a text of letters stands for; other characters in it are skipped. -/
def binary? (text : List Char) : Option (List Nat) :=
  let letters := text.takeWhile (· != '=')
  let padding := (text.filter (· == '=')).length
  let sextets := letters.filterMap sextet?
  if (sextets.length + padding) % 4 = 0 then octetsOf sextets else none

/-- What a scalar holds. -/
def scalarContent (v : Version) (mark : Mark) (type : NodeType) (anchored : Bool)
    (text : List Char) : Except Failure Content :=
  match type with
  | .null => .ok .null
  | .bool =>
    valueResult (fun b => if anchored then .int (if b then 1 else 0) else .bool b) (truth text)
  | .int => valueResult .int (integer v text)
  | .float => valueResult .float (float v text)
  | .text => .ok (.text text)
  | .timestamp =>
    match Timestamp.ofText? text with
    | some stamp => valueResult .timestamp stamp.check
    | none => .error (.at .notTimestamp mark)
  | .binary =>
    match binary? text with
    | some octets => .ok (.octets octets)
    | none => .error (.at .wrongKind mark)
  | .merge => .ok (.opaqueText text)
  | .fallback => .ok (.opaqueText text)
  | .unknown => .ok (.opaqueText text)
  | _ => .error (.at .wrongKind mark)

def Node.isMerge : Node → Bool
  | .scalar _ .merge _ _ => true
  | .sequence _ .merge _ => true
  | .mapping _ .merge _ => true
  | _ => false

/-- The failure of something of an unknown type hides what failed inside it. -/
def hideFailure {α : Type} (mark : Mark) : Except Failure α → Except Failure α
  | .ok a => .ok a
  | .error _ => .error (.at .unknownContent mark)

/-- Adds an entry to a mapping that does not have its key. -/
def addEntry (mark : Mark) (entry : Content × Content) (known : List (Content × Content)) :
    Except Failure (List (Content × Content)) :=
  if Content.hasKey known entry.1 then .error (.at .repeatedKey mark) else .ok (known ++ [entry])

def Node.isMapping : Node → Bool
  | .mapping _ _ _ => true
  | _ => false

/-- What a key holds, if it can be one. The equals sign is a text there. -/
def checkKey (key : Node) (content : Content) : Except Failure Content :=
  match key, content with
  | .scalar _ .fallback _ _, .opaqueText s => .ok (.text s)
  | _, content => if content.isKey then .ok content else .error (key.failure .unfitKey)

/-- The entries of a mapping: its own, then those of the merged mappings. -/
def joined (merged : Except Failure (List (List (Content × Content))))
    (own : Except Failure (List (Content × Content))) : Except Failure (List (Content × Content)) :=
  match merged, own with
  | .error failure, _ => .error failure
  | .ok _, .error failure => .error failure
  | .ok merged, .ok own => .ok (merged.foldl Content.mergeInto own)

mutual

/-- What a node holds. -/
def Node.content (v : Version) : Node → Except Failure Content
  | .scalar mark type anchored text => scalarContent v mark type anchored text
  | .enclosing _ => .ok .enclosing
  | .sequence mark type items =>
    match type with
    | .sequence => (contents v items).map .sequence
    | .unknown => (hideFailure mark (contents v items)).map .sequence
    | .orderedMapping => (singleEntries v items []).map .mapping
    | .pairs => (singles v items).map .pairs
    | _ => .error (.at .wrongKind mark)
  | .mapping mark type entries =>
    let all := joined (mergedEntries v false entries) (ownEntries v entries [])
    match type with
    | .mapping => all.map .mapping
    | .unknown => (hideFailure mark all).map .mapping
    | .set => all.map fun entries => .set (entries.map (·.1))
    | _ => .error (.at .wrongKind mark)

/-- What nodes hold, one after the other. -/
def contents (v : Version) : List Node → Except Failure (List Content)
  | [] => .ok []
  | item :: rest =>
    match item.content v with
    | .error failure => .error failure
    | .ok content => (contents v rest).map (content :: ·)

/-- The mappings that a mapping merges: a value, or those of a sequence. It may do so once, unless
with nothing. -/
def mergedEntries (v : Version) (hasMerged : Bool) :
    List (Node × Node) → Except Failure (List (List (Content × Content)))
  | [] => .ok []
  | (key, value) :: rest =>
    if !key.isMerge then mergedEntries v hasMerged rest
    else if hasMerged then .error (key.failure .repeatedKey)
    else
      let found :=
        if value.isMapping then (value.content v).map fun (content : Content) => [content.entries]
        else
          match value with
          | .sequence _ _ items => mergedItems v items
          | other => .error (other.failure .mergeOfOther)
      match found with
      | .error failure => .error failure
      | .ok merged => (mergedEntries v (!merged.isEmpty) rest).map (merged ++ ·)

/-- The mappings in a merged sequence. -/
def mergedItems (v : Version) : List Node → Except Failure (List (List (Content × Content)))
  | [] => .ok []
  | item :: rest =>
    if item.isMapping then
      match item.content v with
      | .error failure => .error failure
      | .ok content => (mergedItems v rest).map (content.entries :: ·)
    else .error (item.failure .mergeOfOther)

/-- The entries of a mapping that are its own, after those known already. -/
def ownEntries (v : Version) :
    List (Node × Node) → (known : List (Content × Content)) →
      Except Failure (List (Content × Content))
  | [], known => .ok known
  | (key, value) :: rest, known =>
    if key.isMerge then ownEntries v rest known
    else
      match (key.content v).bind (checkKey key), value.content v with
      | .error failure, _ => .error failure
      | .ok _, .error failure => .error failure
      | .ok name, .ok content =>
        match addEntry key.mark (name, content) known with
        | .error failure => .error failure
        | .ok known => ownEntries v rest known

/-- The entries of a sequence of mappings with a single entry each. -/
def singles (v : Version) :
    List Node → Except Failure (List (Content × Content))
  | [] => .ok []
  | .mapping _ _ [(key, value)] :: rest =>
    match key.content v, value.content v with
    | .error failure, _ => .error failure
    | .ok _, .error failure => .error failure
    | .ok name, .ok content => (singles v rest).map ((name, content) :: ·)
  | other :: _ => .error (other.failure .wrongKind)

/-- The same entries as a mapping, after those known already. -/
def singleEntries (v : Version) :
    List Node → (known : List (Content × Content)) → Except Failure (List (Content × Content))
  | [], known => .ok known
  | .mapping _ _ [(key, value)] :: rest, known =>
    match key.content v, value.content v with
    | .error failure, _ => .error failure
    | .ok _, .error failure => .error failure
    | .ok name, .ok content =>
      match addEntry key.mark (name, content) known with
      | .error failure => .error failure
      | .ok known => singleEntries v rest known
  | other :: _, _ => .error (other.failure .wrongKind)
termination_by structural items => items

end

end PayloadCheck.Yaml
