import PayloadCheck.Json.Finite
import PayloadCheck.Store

namespace PayloadCheck.Http

open Json

def version : String := "0.1.0"

inductive Answer
  | healthy
  | outcome (o : Outcome)
  | diagnosis (d : Diagnosis) (ranges : List Highlight.Range)
  | loaded (r : LoadReport)
  | documents (all : List Summary)
  | operations (all : List Spec.Operation)
  | requestSchema (id method path : String) (schema : Value)
  | removed
  | moved
  | nowhere
  | wrongMethod
  | tooLarge (limit : Int)
  | unreadable
  | rejected (errors : List InputError)
  | unloadable (messages : List String)
  | unknownDocument (id : String)
  | noSchema (method path : String)
deriving Repr

namespace Answer

def status : Answer → Nat
  | .healthy => 200
  | .outcome _ => 200
  | .diagnosis _ _ => 200
  | .loaded _ => 201
  | .documents _ => 200
  | .operations _ => 200
  | .requestSchema _ _ _ _ => 200
  | .removed => 204
  | .moved => 307
  | .nowhere => 404
  | .wrongMethod => 405
  | .tooLarge _ => 413
  | .unreadable => 400
  | .rejected _ => 422
  | .unloadable _ => 422
  | .unknownDocument _ => 404
  | .noSchema _ _ => 404

end Answer

def textValue : Option String → Value
  | none => .null
  | some s => .str s

def numberValue : Option Int → Value
  | none => .null
  | some n => .int n

def diagnosisValue (d : Diagnosis) : Value :=
  .obj [("valid", .bool d.isValid), ("error_message", textValue d.message?),
    ("offset", numberValue d.offset?), ("line", numberValue (d.place?.map (·.line))),
    ("column", numberValue (d.place?.map (·.column)))]

def rangesValue (ranges : List Highlight.Range) : Value :=
  .arr (ranges.map fun r => .obj [("start", .int r.start), ("end", .int r.stop)])

def schemaErrorValue (e : Schema.SchemaError) : Value :=
  .obj [("path", .str e.path), ("message", .str e.message)]

def outcomeValue (o : Outcome) : Value :=
  .obj [("syntax", diagnosisValue o.syntaxDiagnosis), ("ranges", rangesValue o.ranges),
    ("schema_errors", .arr (o.schemaErrors.map schemaErrorValue)),
    ("schema_checked", .bool o.schemaChecked), ("valid", .bool o.valid)]

def summaryMembers (s : Summary) : List (String × Value) :=
  [("spec_id", .str s.id), ("title", textValue s.title), ("version", textValue s.version),
    ("openapi_version", textValue s.generation), ("operations", .int s.operations)]

def operationValue (op : Spec.Operation) : Value :=
  .obj [("method", .str op.method), ("path", .str op.path),
    ("operation_id", textValue op.operationId), ("summary", textValue op.summary),
    ("has_request_schema", .bool op.hasSchema)]

def stepValue : InputStep → Value
  | .field name => .str name
  | .offset n => .int n

def inputErrorValue (e : InputError) : Value :=
  .obj [("type", .str e.fault.kind), ("loc", .arr (e.place.map stepValue)),
    ("msg", .str e.fault.message)]

/-- The body of an answer that refuses a request. -/
def detail (v : Value) : Option Value := some (.obj [("detail", v)])

def Answer.body? : Answer → Option Value
  | .healthy => some (.obj [("status", .str "ok"), ("version", .str version)])
  | .outcome o => some (outcomeValue o)
  | .diagnosis d ranges =>
    some (.obj [("syntax", diagnosisValue d), ("ranges", rangesValue ranges)])
  | .loaded r =>
    some (.obj (summaryMembers r.summary ++ [("operations_with_body", .int r.withBody)]))
  | .documents all => some (.arr (all.map fun s => .obj (summaryMembers s)))
  | .operations all => some (.arr (all.map operationValue))
  | .requestSchema id method path schema =>
    some (.obj [("spec_id", .str id), ("method", .str method), ("path", .str path),
      ("schema", schema.sent)])
  | .removed => none
  | .moved => none
  | .nowhere => detail (.str "Not Found")
  | .wrongMethod => detail (.str "Method Not Allowed")
  | .tooLarge limit =>
    detail (.str ("Request body too large (max " ++ toString (limit.fdiv 1024) ++ " KB)"))
  | .unreadable => detail (.str "There was an error parsing the body")
  | .rejected errors => detail (.arr (errors.map inputErrorValue))
  | .unloadable messages =>
    detail (.obj [("message", .str "Invalid specification document"),
      ("errors", .arr (messages.map .str))])
  | .unknownDocument id => detail (.str ("Specification '" ++ id ++ "' not found"))
  | .noSchema method path =>
    detail (.str ("No request-body schema for " ++ method ++ " " ++ path))

end PayloadCheck.Http
