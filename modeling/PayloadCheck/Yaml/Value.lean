import PayloadCheck.Json.Display
import PayloadCheck.Yaml.Content

namespace PayloadCheck.Yaml

open Json

/-- An octet between quotes of a given kind. -/
def shownOctet (quote : Char) (octet : Nat) : List Char :=
  let c := Char.ofNat octet
  if c == quote || c == '\\' then ['\\', c]
  else if c == '\t' then ['\\', 't']
  else if c == '\n' then ['\\', 'n']
  else if c == '\r' then ['\\', 'r']
  else if 0x20 ≤ octet && octet < 0x7F then [c]
  else '\\' :: 'x' :: hexDigits 2 octet

/-- Octets in quotes, chosen as for a string, after a letter. -/
def shownOctets (octets : List Nat) : List Char :=
  let hasQuote := fun (c : Char) => octets.contains c.toNat
  let quote := if hasQuote '\'' && !hasQuote '"' then '"' else '\''
  'b' :: quote :: octets.flatMap (shownOctet quote) ++ [quote]

/-- Items between parentheses; a single one has a comma behind it. -/
def shownTuple (items : List (List Char)) : List Char :=
  match items with
  | [item] => '(' :: item ++ [',', ')']
  | items => '(' :: separated items ++ [')']

/-- Items between curly brackets; no item at all has a name instead. -/
def shownSet (items : List (List Char)) : List Char :=
  if items.isEmpty then "set()".toList else '\x7b' :: separated items ++ ['\x7d']

namespace Content

mutual

/-- The text of a value inside the text of a key, unless an integer in it has too many digits. -/
def shown? : Content → Option (List Char)
  | .null => Json.show? .null
  | .bool b => Json.show? (.bool b)
  | .int n => Json.show? (.int n)
  | .float x => Json.show? (.float x)
  | .text s => some (shownString (String.ofList s))
  | .timestamp t => some (t.text ' ')
  | .octets bytes => some (shownOctets bytes)
  | .opaqueText s => some s
  | .sequence items => (shownItems? items).map fun items => '[' :: separated items ++ [']']
  | .mapping entries => (shownEntries? entries).map fun items =>
    "ordereddict(".toList ++ (if items.isEmpty then [] else '[' :: separated items ++ [']']) ++ [')']
  | .pairs entries => (shownEntries? entries).map fun items => '[' :: separated items ++ [']']
  | .set items => (shownItems? items).map shownSet
  | .enclosing => some "...".toList

def shownItems? : List Content → Option (List (List Char))
  | [] => some []
  | item :: rest =>
    match item.shown?, shownItems? rest with
    | some head, some tail => some (head :: tail)
    | _, _ => none

def shownEntries? : List (Content × Content) → Option (List (List Char))
  | [] => some []
  | (key, value) :: rest =>
    match key.shown?, value.shown?, shownEntries? rest with
    | some name, some shown, some tail => some (shownTuple [name, shown] :: tail)
    | _, _, _ => none

end

/-- The text of a key, unless an integer in it has too many digits. -/
def keyText? : Content → Option (List Char)
  | .text s => some s
  | .sequence items => (shownItems? items).map shownTuple
  | content => content.shown?

/-- The result of writing a text, where an integer may have too many digits. -/
def written {α : Type} : Option α → Except Failure α
  | some a => .ok a
  | none => .error (.badValue .tooLongInteger)

/-- The text of a value as a string. -/
def stringOf (shown : Option (List Char)) : Except Failure Json.Value :=
  (written shown).map fun s => .str (String.ofList s)

/-- The texts of pairs, each as a string. -/
def pairStrings (entries : List (Content × Content)) : Except Failure Json.Value :=
  (written (shownEntries? entries)).map fun items => .arr (items.map (.str <| String.ofList ·))

mutual

/-- The JSON value of a content. Of two keys with one text the first gives the place and the last
the value. -/
def value : Content → Except Failure Json.Value
  | .null => .ok .null
  | .bool b => .ok (.bool b)
  | .int n => .ok (.int n)
  | .float x => .ok (.float x)
  | .text s => .ok (.str (String.ofList s))
  | .timestamp t => .ok (.str (String.ofList (t.text 'T')))
  | .octets bytes => stringOf (some (shownOctets bytes))
  | .opaqueText s => .ok (.str (String.ofList s))
  | .sequence items => (values items).map .arr
  | .mapping entries => (members entries).map fun members => .obj (distinct members)
  | .pairs entries => pairStrings entries
  | .set items => stringOf ((shownItems? items).map shownSet)
  | .enclosing => .error .tooDeep

def values : List Content → Except Failure (List Json.Value)
  | [] => .ok []
  | item :: rest =>
    match item.value with
    | .error failure => .error failure
    | .ok value => (values rest).map (value :: ·)

/-- The members of the object that entries make; a name may still come twice. -/
def members : List (Content × Content) → Except Failure (List (String × Json.Value))
  | [] => .ok []
  | (key, content) :: rest =>
    match written key.keyText?, content.value with
    | .error failure, _ => .error failure
    | .ok _, .error failure => .error failure
    | .ok name, .ok value =>
      (members rest).map ((String.ofList name, value) :: ·)

end

end Content

/-- The value of a text with a single document, none standing for null; collections may nest up to
a depth. -/
def read (depth : Int) (text : List Char) : Except Failure Json.Value :=
  match Node.ofText depth text with
  | .error failure => .error failure
  | .ok (_, none) => .ok .null
  | .ok (version, some root) =>
    match root.content version with
    | .error failure => .error failure
    | .ok content => content.value

end PayloadCheck.Yaml
