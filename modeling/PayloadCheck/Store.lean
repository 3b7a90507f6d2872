import PayloadCheck.Document.Load
import PayloadCheck.Spec.Resolver

namespace PayloadCheck

open Json Schema

/-- A loaded document, with what has been found in it, and its operations. -/
structure Entry where
  resolver : Spec.Resolver
  operations : List Spec.Operation

structure Store where
  limits : Document.Limits
  ids : Nat → String
  issued : Nat
  entries : List (String × Entry)

/-- Why an operation on a store fails. A value fault is no fault of the document as such: a date or
an integer in it cannot be written down. A schema is rejected that has a name which is no text. -/
inductive StoreError
  | unknownId (id : String)
  | unloadable (messages : List String)
  | badValue (fault : Yaml.ValueFault)
  | rejected (e : InputError)
deriving Repr

/-- What a listing tells of a document. -/
structure Summary where
  id : String
  title : Option String
  version : Option String
  generation : Option String
  operations : Nat
deriving DecidableEq, Repr

/-- What is told of a document when it has been loaded. -/
structure LoadReport where
  summary : Summary
  withBody : Nat
deriving DecidableEq, Repr

def StoreError.message : StoreError → String
  | .unknownId id => "No specification loaded with id '" ++ id ++ "'"
  | .unloadable messages => "; ".intercalate messages
  | .badValue fault => fault.message
  | .rejected e => e.fault.message

/-- The text of a value, if there is one other than null. -/
def displayed : Option Value → Except StoreError (Option String)
  | none => .ok none
  | some .null => .ok none
  | some v =>
    match display? v with
    | some s => .ok (some s)
    | none => .error (.badValue .tooLongInteger)

/-- The version of the format that a document is written in. -/
def generation (document : Value) : Option Value :=
  (document.get? "openapi").or (document.get? "swagger")

/-- The summary of a document. -/
def Entry.summary (id : String) (entry : Entry) : Except StoreError Summary :=
  let document := entry.resolver.document
  match displayed (document.dig? ["info", "title"]), displayed (document.dig? ["info", "version"]),
      displayed (generation document) with
  | .ok title, .ok version, .ok generation =>
    .ok ⟨id, title, version, generation, entry.operations.length⟩
  | .error e, _, _ => .error e
  | _, .error e, _ => .error e
  | _, _, .error e => .error e

/-- The entry of a document that has just been loaded. -/
def Entry.ofDocument (room : Nat) (document : Value) : Except InputError Entry :=
  match Spec.Resolver.operations room (.ofDocument document) with
  | (.ok operations, resolver) => .ok ⟨resolver, operations⟩
  | (.error e, _) => .error e

/-- How a load fails because of a fault. -/
def StoreError.ofFault (fault : Document.Fault) : StoreError :=
  match fault with
  | .badValue valueFault => .badValue valueFault
  | _ =>
    if fault.isUnsafe then .unloadable ["Unsafe specification document: " ++ fault.message]
    else
      match fault.position? with
      | none => .unloadable [fault.message]
      | some (line, column) =>
        .unloadable [fault.message ++ " (line " ++ toString line ++ ", column " ++
          toString column ++ ")"]

namespace Store

/-- A store without documents. -/
def empty (limits : Document.Limits) (ids : Nat → String) : Store := ⟨limits, ids, 0, []⟩

def find? (s : Store) (id : String) : Option Entry := lookup? id s.entries

/-- The entry with an id. -/
def get (s : Store) (id : String) : Except StoreError Entry :=
  match s.find? id with
  | some entry => .ok entry
  | none => .error (.unknownId id)

/-- Replaces what has been found in a document. -/
def put (s : Store) (id : String) (entry : Entry) : Store :=
  { s with entries := assign id entry s.entries }

/-- Loads a document and reports on it. The document stays loaded if only the report fails. -/
def load (s : Store) (text : List Char) : Except StoreError LoadReport × Store :=
  match Document.load s.limits text with
  | .error fault => (.error (.ofFault fault), s)
  | .ok document =>
    match Entry.ofDocument s.limits.room document with
    | .error e => (.error (.rejected e), s)
    | .ok entry =>
      let id := s.ids s.issued
      let withBody := (entry.operations.filter (·.hasSchema)).length
      ((entry.summary id).map (⟨·, withBody⟩), { s.put id entry with issued := s.issued + 1 })

/-- The summaries of entries, in their order. -/
def summaries : List (String × Entry) → Except StoreError (List Summary)
  | [] => .ok []
  | (id, entry) :: rest =>
    match entry.summary id, summaries rest with
    | .error e, _ => .error e
    | .ok _, .error e => .error e
    | .ok summary, .ok others => .ok (summary :: others)

/-- The summaries of all documents, in the order of their loads. -/
def list (s : Store) : Except StoreError (List Summary) := summaries s.entries

/-- The document with an id. -/
def document (s : Store) (id : String) : Except StoreError Value :=
  (s.get id).map (·.resolver.document)

/-- The operations of a document. -/
def operations (s : Store) (id : String) : Except StoreError (List Spec.Operation) :=
  (s.get id).map (·.operations)

/-- Removes a document. -/
def remove (s : Store) (id : String) : Except StoreError Unit × Store :=
  match s.find? id with
  | none => (.error (.unknownId id), s)
  | some _ => (.ok (), { s with entries := without id s.entries })

/-- The schema of the body of an operation. -/
def schema (s : Store) (id method path : String) : Except StoreError (Option Node) × Store :=
  match s.get id with
  | .error e => (.error e, s)
  | .ok entry =>
    let (node, resolver) := Spec.Resolver.resolve s.limits.room method path entry.resolver
    (node.mapError .rejected, s.put id { entry with resolver := resolver })

/-- Checks a payload against the body of an operation. -/
def check (s : Store) (id method path : String) (text : List Char) :
    Except StoreError Outcome × Store :=
  match s.get id with
  | .error e => (.error e, s)
  | .ok entry =>
    let (outcome, resolver) := Spec.Resolver.check s.limits.room method path text entry.resolver
    (outcome.mapError .rejected, s.put id { entry with resolver := resolver })

end Store

/-- Ids that count up from one, in eight hexadecimal digits. -/
def countedId (n : Nat) : String := String.ofList (hexDigits 8 (n + 1))

end PayloadCheck
