import PayloadCheck.Demand
import PayloadCheck.Json.Print
import PayloadCheck.Store
import PayloadCheck.Tool.Snippet

namespace PayloadCheck.Tool

open Json Schema

inductive Call
  | validateJson (text : String) (schema : Option String)
  | validatePayload (id method path text : String)
  | loadDocument (text : String)
  | listDocuments
  | listOperations (id : String)
  | requestSchema (id method path : String)
  | removeDocument (id : String)
deriving DecidableEq, Repr

/-- The call of a tool by its name, with its arguments in order. -/
def Call.named? : String → List Value → Option Call
  | "validate_json", [.str text] => some (.validateJson text none)
  | "validate_json", [.str text, .null] => some (.validateJson text none)
  | "validate_json", [.str text, .str schema] => some (.validateJson text (some schema))
  | "validate_payload", [.str id, .str method, .str path, .str text] =>
    some (.validatePayload id method path text)
  | "load_spec", [.str text] => some (.loadDocument text)
  | "list_specs", [] => some .listDocuments
  | "list_operations", [.str id] => some (.listOperations id)
  | "get_request_schema", [.str id, .str method, .str path] =>
    some (.requestSchema id method path)
  | "remove_spec", [.str id] => some (.removeDocument id)
  | _, _ => none

/-- Why a call is not answered. -/
inductive Refusal
  | noStore
  | malformedSchema (message : String)
  | schemaNotObject
  | unloadable (messages : List String)
  | unknownId (id : String)
  | badValue (fault : Yaml.ValueFault)
  | rejected (e : InputError)
  | unwritable
deriving Repr

def Refusal.message : Refusal → String
  | .noStore => "Spec store not initialised"
  | .malformedSchema message => "schema_json is not valid JSON: " ++ message
  | .schemaNotObject => "schema_json must be a JSON object"
  | .unloadable messages =>
    "Could not load specification: " ++ (StoreError.unloadable messages).message
  | .unknownId id => (StoreError.unknownId id).message
  | .badValue fault => fault.message
  | .rejected e => e.fault.message
  | .unwritable => Node.unwritableMessage

def Refusal.ofStore : StoreError → Refusal
  | .badValue fault => .badValue fault
  | .rejected e => .rejected e
  | .unloadable messages => .unloadable messages
  | .unknownId id => .unknownId id

def lines (all : List String) : String := "\n".intercalate all

/-- What is said of a payload with a syntax error. -/
def syntaxReport (text : List Char) (message : String) (place : Option Place)
    (ranges : List Highlight.Range) : String :=
  let spot :=
    match place with
    | none => ""
    | some place =>
      " (line " ++ toString place.line ++ ", column " ++ toString place.column ++ ")"
  let near :=
    match snippet? text ranges with
    | none => []
    | some snippet => ["  near: " ++ String.ofList snippet]
  lines (("Invalid JSON" ++ spot ++ ": " ++ message) :: near)

/-- What is said of a payload. -/
def report (text : List Char) (o : Outcome) : String :=
  match o.syntaxDiagnosis with
  | .invalid message place => syntaxReport text message place o.ranges
  | .valid =>
    if o.schemaErrors.isEmpty then
      if o.schemaChecked then "Payload is valid JSON and matches the request schema."
      else "Payload is valid JSON (no request-body schema was checked)."
    else
      lines (("Schema errors (" ++ toString o.schemaErrors.length ++ "):") ::
        o.schemaErrors.map fun e => "  - " ++ e.path ++ ": " ++ e.message)

/-- A text, or something else in place of a missing or empty one. -/
def orElse (text : Option String) (other : String) : String :=
  match text with
  | none => other
  | some s => if s = "" then other else s

/-- What is said of a document that has been loaded. -/
def loadText (r : LoadReport) : String :=
  lines
    ["Specification loaded successfully.  spec_id: " ++ r.summary.id,
      "  title:      " ++ orElse r.summary.title "-",
      "  version:    " ++ orElse r.summary.version "-",
      "  openapi:    " ++ orElse r.summary.generation "-",
      "  operations: " ++ toString r.summary.operations ++ " (" ++ toString r.withBody ++
        " with a JSON request body)"]

def listText (summaries : List Summary) : String :=
  if summaries.isEmpty then "No specifications loaded."
  else
    lines ("Loaded specifications:" :: "" :: summaries.map fun summary =>
      "  " ++ summary.id ++ "  " ++ orElse summary.title "(untitled)" ++ "  (operations: " ++
        toString summary.operations ++ ")")

/-- A text with spaces behind it up to a width. -/
def padded (width : Nat) (text : String) : String :=
  text ++ String.ofList (List.replicate (width - text.length) ' ')

def operationsText (operations : List Spec.Operation) : String :=
  if operations.isEmpty then "No operations declared."
  else
    lines (operations.map fun op =>
      "  " ++ padded 7 op.method ++ " " ++ op.path ++
        if op.hasSchema then "  [body schema]" else "")

/-- The text of the schema of an operation. -/
def schemaText (method path : String) : Option Node → Except Refusal String
  | none => .ok ("No JSON request-body schema for " ++ Spec.upperCase method ++ " " ++ path ++ ".")
  | some node =>
    match node.write? with
    | none => .error .unwritable
    | some schema =>
      match render? 0 schema with
      | some text => .ok (String.ofList text)
      | none => .error (.badValue .tooLongInteger)

/-- The schema that a text gives; a blank one gives none. -/
def givenSchema : Option String → Except Refusal (Option Value)
  | none => .ok none
  | some text =>
    if Text.allBlank text.toList then .ok none
    else
      match Json.parse text.toList with
      | (.invalid message _, _) => .error (.malformedSchema message)
      | (.valid, v) => if v.isObject then .ok (some v) else .error .schemaNotObject

/-- What a tool says of the result of a store. -/
def answer {α : Type} (write : α → Except Refusal String) :
    Except StoreError α → Except Refusal String
  | .ok a => write a
  | .error e => .error (.ofStore e)

/-- Answers a call with a store, which may change. -/
def Call.run (s : Store) : Call → Except Refusal String × Store
  | .validateJson text schema =>
    let told := (givenSchema schema).bind fun schema =>
      match PayloadCheck.run text.toList { schema := schema, room := s.limits.room } with
      | .ok o => .ok (report text.toList o)
      | .error e => .error (.rejected e)
    (told, s)
  | .validatePayload id method path text =>
    let (outcome, s) := s.check id method path text.toList
    (answer (fun o => .ok (report text.toList o)) outcome, s)
  | .loadDocument text =>
    let (loaded, s) := s.load text.toList
    (answer (fun r => .ok (loadText r)) loaded, s)
  | .listDocuments => (answer (fun all => .ok (listText all)) s.list, s)
  | .listOperations id => (answer (fun all => .ok (operationsText all)) (s.operations id), s)
  | .requestSchema id method path =>
    let (node, s) := s.schema id method path
    (answer (schemaText method path) node, s)
  | .removeDocument id =>
    let (removed, s) := s.remove id
    (answer (fun _ => .ok ("Specification " ++ id ++ " removed.")) removed, s)

/-- The refusal of a call where there is no store. A schema that cannot be read is refused first. -/
def Call.refusal : Call → Refusal
  | .validateJson _ schema =>
    match givenSchema schema with
    | .error refusal => refusal
    | .ok _ => .noStore
  | _ => .noStore

/-- Answers a call where there may be no store. -/
def Call.answer (call : Call) : Option Store → Except Refusal String × Option Store
  | none => (.error call.refusal, none)
  | some s =>
    let (text, s) := call.run s
    (text, some s)

end PayloadCheck.Tool
