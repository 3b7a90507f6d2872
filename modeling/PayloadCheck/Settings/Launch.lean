import PayloadCheck.Settings.Environment

namespace PayloadCheck.Settings

/-- How a server is started: the service at an address; the tools on the standard streams, or at an
address over another transport. Addresses go with the log level of the server. -/
inductive Launch
  | service (host : String) (port : Int) (logLevel : String)
  | toolsOnStreams
  | toolsAt (transport host : String) (port : Int) (logLevel : String)
deriving DecidableEq, Repr

def level (s : Settings) : String := String.ofList (Text.upper s.logLevel.toList)

/-- The log level as servers take it. -/
def serverLevel (s : Settings) : String := String.ofList (Text.lower s.logLevel.toList)

def serviceLaunch (s : Settings) : Launch :=
  .service s.serviceHost s.effectivePort s.serverLevel

def toolLaunch (s : Settings) : Launch :=
  if s.transport = "stdio" then .toolsOnStreams
  else .toolsAt s.transport s.toolHost s.toolPort s.serverLevel

end PayloadCheck.Settings
