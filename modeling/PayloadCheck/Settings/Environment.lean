import PayloadCheck.Entries
import PayloadCheck.Settings.Numeral
import PayloadCheck.Text.Case

namespace PayloadCheck

/-- The settings. An assigned port takes precedence over the port of the service. -/
structure Settings where
  logLevel : String := "INFO"
  serviceHost : String := "localhost"
  servicePort : Int := 8000
  assignedPort : Option Int := none
  documentLimit : Int := 5000000
  bodyLimit : Int := 5242880
  transport : String := "stdio"
  toolHost : String := "localhost"
  toolPort : Int := 9000
deriving DecidableEq, Repr

/-- The variables of an environment, in the order in which they were set. -/
abbrev Environment := List (String × String)

namespace Environment

/-- The variables under their names in small letters. -/
def lowered (environment : Environment) : Environment :=
  environment.map fun entry => (String.ofList (Text.lower entry.1.toList), entry.2)

/-- The value of a variable, whatever the case of its name. The variable set last counts. -/
def value? (environment : Environment) (name : String) : Option String :=
  lookup? name (distinct environment.lowered)

/-- The value of a variable, or another text where it is not set. -/
def text (environment : Environment) (name other : String) : String :=
  (environment.value? name).getD other

/-- The integer in a variable, if it is set. -/
def integer? (environment : Environment) (name : String) : Except (List InputError) (Option Int) :=
  match environment.value? name with
  | none => .ok none
  | some text =>
    match Settings.integer text.toList with
    | .ok n => .ok (some n)
    | .error fault => .error [⟨[.field name], fault⟩]

end Environment

namespace Settings

/-- The port to listen on. -/
def effectivePort (s : Settings) : Int := s.assignedPort.getD s.servicePort

def faults {α : Type} : Except (List InputError) α → List InputError
  | .ok _ => []
  | .error errors => errors

/-- The settings that an environment gives, or else the errors of all its integers. -/
def ofEnvironment (environment : Environment) : Except (List InputError) Settings :=
  let standard : Settings := {}
  match environment.integer? "api_server_port", environment.integer? "port",
      environment.integer? "max_spec_size", environment.integer? "max_body_bytes",
      environment.integer? "mcp_server_port" with
  | .ok servicePort, .ok assignedPort, .ok documentLimit, .ok bodyLimit, .ok toolPort =>
    .ok
      { logLevel := environment.text "log_level" standard.logLevel
        serviceHost := environment.text "api_server_host" standard.serviceHost
        servicePort := servicePort.getD standard.servicePort
        assignedPort := assignedPort
        documentLimit := documentLimit.getD standard.documentLimit
        bodyLimit := bodyLimit.getD standard.bodyLimit
        transport := environment.text "mcp_transport" standard.transport
        toolHost := environment.text "mcp_server_host" standard.toolHost
        toolPort := toolPort.getD standard.toolPort }
  | servicePort, assignedPort, documentLimit, bodyLimit, toolPort =>
    .error (faults servicePort ++ faults assignedPort ++ faults documentLimit ++
      faults bodyLimit ++ faults toolPort)

end Settings

end PayloadCheck
