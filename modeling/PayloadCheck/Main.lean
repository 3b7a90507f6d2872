import PayloadCheck.Http.Service
import PayloadCheck.Json.Print
import PayloadCheck.Settings.Launch
import PayloadCheck.Tool.Call

namespace PayloadCheck.CommandLine

open Json

/-- The names of the variables that the settings are read from. -/
def variableNames : List String :=
  ["LOG_LEVEL", "API_SERVER_HOST", "API_SERVER_PORT", "PORT", "MAX_SPEC_SIZE", "MAX_BODY_BYTES",
    "MCP_TRANSPORT", "MCP_SERVER_HOST", "MCP_SERVER_PORT"]

def environment : IO Environment :=
  variableNames.filterMapM fun name => do
    let value ← IO.getEnv name
    return value.map (name, ·)

/-- An empty store within the limits of the settings. -/
def emptyStore (settings : Settings) : Store :=
  let standard : Document.Limits := {}
  .empty { standard with size := settings.documentLimit } countedId

/-- The call on a line: a JSON array of the name of a tool and its arguments. -/
def call? (line : String) : Option Tool.Call :=
  match Json.parse line.toList with
  | (.valid, .arr (.str name :: arguments)) => Tool.Call.named? name arguments
  | _ => none

/-- The request on a line: a method, a path with its query, and a body, with a blank between. -/
def request (line : String) : Http.Request :=
  let parts := Text.split ' ' (Text.strip line.toList)
  let target := parts.getD 1 []
  let path := target.takeWhile (· ≠ '?')
  let body := List.intercalate [' '] (parts.drop 2)
  { method := String.ofList (parts.getD 0 [])
    path := path
    query := target.drop (path.length + 1)
    headers := [("content-type", "application/json".toList)]
    pieces := [Text.Utf8.encode body] }

/-- The status of an answer, and its body where it has one. -/
def answerText (answer : Http.Answer) : String :=
  let body := (answer.body?.bind (render? 0)).map fun text => " " ++ String.ofList text
  toString answer.status ++ body.getD ""

def callStep (store : Option Store) (line : String) : String × Option Store :=
  match call? line with
  | none => ("Unknown call", store)
  | some call =>
    match call.answer store with
    | (.ok text, store) => (text, store)
    | (.error refusal, store) => (refusal.message, store)

def requestStep (service : Http.Service) (line : String) : String × Http.Service :=
  match service.handle (request line) with
  | (.ok answer, service) => (answerText answer, service)
  | (.error failure, service) => (failure.message, service)

/-- Answers line by line until the input ends. -/
partial def serve {σ : Type} (step : σ → String → String × σ) (input output : IO.FS.Stream)
    (state : σ) : IO Unit := do
  let line ← input.getLine
  if line.isEmpty then return
  let (text, state) := step state line
  output.putStrLn text
  output.flush
  serve step input output state

def complain (e : InputError) : IO Unit :=
  let name :=
    match e.place with
    | [.field name] => name
    | _ => ""
  IO.eprintln (name ++ ": " ++ e.fault.message)

end PayloadCheck.CommandLine

open PayloadCheck PayloadCheck.CommandLine in
def main (arguments : List String) : IO UInt32 := do
  match Settings.ofEnvironment (← environment) with
  | .error errors =>
    errors.forM complain
    return 1
  | .ok settings =>
    let input ← IO.getStdin
    let output ← IO.getStdout
    match arguments with
    | ["service"] =>
      serve requestStep input output ⟨settings.bodyLimit, some (emptyStore settings)⟩
      return 0
    | ["tools"] =>
      serve callStep input output (some (emptyStore settings))
      return 0
    | _ =>
      IO.eprintln "usage: payloadcheck (service | tools)"
      return 2
