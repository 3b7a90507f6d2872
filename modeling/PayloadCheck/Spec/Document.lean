import PayloadCheck.Schema.Reference
import PayloadCheck.Spec.Pointer
import PayloadCheck.Text.Case

namespace PayloadCheck.Spec

open Json Schema

/-- The operation of a path, as a summary lists it. -/
structure Operation where
  method : String
  path : String
  operationId : Option String
  summary : Option String
  hasSchema : Bool
deriving DecidableEq, Repr

/-- The methods of operations, in the order in which they are listed. -/
def methods : List String :=
  ["get", "put", "post", "delete", "options", "head", "patch", "trace"]

/-- The media types whose schema describes a JSON body, the preferred first. -/
def mediaTypes : List String := ["application/json", "application/*", "*/*"]

def lowerCase (s : String) : String := String.ofList (Text.lower s.toList)

def upperCase (s : String) : String := String.ofList (Text.upper s.toList)

/-- The schema that a value describes; none if it is no object, or there is no room to read it. -/
def readSchema (room : Nat) (v : Value) : Option Node := (Node.read? room v).join

/-- The schema that a value describes, if there is a value and reading it does not end with an error. -/
def readFound (room : Nat) (found : Option Value) : Except InputError (Option Node) :=
  match found.bind (Node.readError? room) with
  | some e => .error e
  | none => .ok (found.bind (readSchema room))

/-- The value that a reference names in a document. -/
def rawRef? (document : Value) (ref : String) : Option Value :=
  (target? ref.toList).bind fun (table, name) => (document.dig? table.way).bind (·.get? name)

/-- The schema that a reference names in a document. -/
def lookupRef (room : Nat) (document : Value) (ref : String) : Option Node :=
  (rawRef? document ref).bind (readSchema room)

/-- The number of entries of a document's tables. -/
def tableSize (document : Value) : Nat :=
  (tables.flatMap fun table => ((document.dig? table.way).bind (·.members?)).getD []).length

def references (room : Nat) (document : Value) : References Id :=
  ⟨lookupRef room document, tableSize document⟩

/-- The description of the body of an operation for the preferred media type. -/
def media? (document : Value) (method path : String) : Option Value :=
  (document.dig? ["paths", path, method, "requestBody", "content"]).bind fun content =>
    mediaTypes.findSome? fun type => (content.get? type).filter (·.isObject)

/-- The schema of a media type, given in place or by a reference beside it. -/
def mediaSchema? (media : Value) : Option Value :=
  match media.get? "schema" with
  | some (.obj members) => some (.obj members)
  | _ =>
    match media.get? "schemaRef" with
    | some (.str ref) => some (.obj [("$ref", .str ref)])
    | some (.obj members) => some (.obj members)
    | _ => none

/-- Takes one step where a schema refers into a table; other references stay. -/
def stepRef (document raw : Value) : Option Value :=
  match raw.get? "$ref" with
  | some (.str ref) => if isLocal ref then rawRef? document ref else some raw
  | _ => some raw

/-- What describes the schema of the body of an operation whose method is in small letters. -/
def rawBody? (document : Value) (method path : String) : Option Value :=
  ((media? document method path).bind mediaSchema?).bind (stepRef document)

/-- The schema of the body of an operation, its method in any case. -/
def resolve (room : Nat) (document : Value) (method path : String) : Option Node :=
  (rawBody? document (lowerCase method) path).bind (readSchema room)

/-- The paths of a document and what it says of them. -/
def paths (document : Value) : List (String × Value) :=
  ((document.get? "paths").bind (·.members?)).getD []

/-- An operation as a document declares it: its method in small letters, its path, and the members of
its description. -/
structure Declaration where
  method : String
  path : String
  description : List (String × Value)

/-- The operations of a path, in the order of the methods. -/
def pathDeclarations (path : String) (item : Value) : List Declaration :=
  methods.filterMap fun method =>
    ((item.get? method).bind (·.members?)).map fun description => ⟨method, path, description⟩

/-- The declared operations: by path in the order of the document, and by method within one. -/
def declarations (document : Value) : List Declaration :=
  (paths document).flatMap fun (path, item) => pathDeclarations path item

def Declaration.operation (d : Declaration) (hasSchema : Bool) : Operation :=
  { method := upperCase d.method
    path := d.path
    operationId := (lookup? "operationId" d.description).bind (·.str?)
    summary := (lookup? "summary" d.description).bind (·.str?)
    hasSchema := hasSchema }

def operations (room : Nat) (document : Value) : List Operation :=
  (declarations document).map fun d => d.operation (resolve room document d.method d.path).isSome

end PayloadCheck.Spec
