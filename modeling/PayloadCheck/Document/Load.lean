import PayloadCheck.Document.Anchor
import PayloadCheck.Document.Shape
import PayloadCheck.Json.Parse
import PayloadCheck.Room
import PayloadCheck.Text.Utf8
import PayloadCheck.Yaml.Value

namespace PayloadCheck.Document

open Json

/-- How long a text may be, how many values it may hold and how deep they may lie, and how many calls
there is room for when a payload is checked against a document. -/
structure Limits where
  size : Int := 5000000
  nodes : Int := 200000
  depth : Int := 64
  room : Nat := standardRoom
deriving Repr

/-- Why a text is no document. -/
inductive Fault
  | tooLarge (size : Nat) (limit : Int)
  | anchors
  | tooManyNodes (limit : Int)
  | tooDeep (limit : Int)
  | unreadablyDeep
  | malformedJson (message : String) (place : Option Place)
  | malformedYaml (fault : Yaml.Fault) (mark : Option Yaml.Mark)
  | badValue (fault : Yaml.ValueFault)
  | notMapping
  | noPaths
deriving Repr

namespace Fault

def message : Fault → String
  | .tooLarge size limit =>
    "Specification document exceeds maximum size (" ++ Number.grouped size ++ " chars > " ++
      Number.groupedInt limit ++ " limit)"
  | .anchors => "YAML anchors/aliases are not supported in specification documents"
  | .tooManyNodes limit =>
    "Specification document exceeds maximum node count (" ++ Number.groupedInt limit ++ ")"
  | .tooDeep limit =>
    "Specification document exceeds maximum nesting depth (" ++ toString limit ++ ")"
  | .unreadablyDeep => "Specification document is nested too deeply"
  | .malformedJson message _ => "Invalid JSON specification: " ++ message
  | .malformedYaml fault _ => "Invalid YAML specification: " ++ fault.message
  | .badValue fault => fault.message
  | .notMapping => "Specification document must be a mapping at the top level"
  | .noPaths => "Specification document has no 'paths' mapping"

/-- Whether a text was refused because reading it may not be safe. -/
def isUnsafe : Fault → Bool
  | .tooLarge _ _ => true
  | .anchors => true
  | .tooManyNodes _ => true
  | .tooDeep _ => true
  | .unreadablyDeep => true
  | _ => false

/-- The line and column of a fault, where they are known. -/
def position? : Fault → Option (Int × Int)
  | .malformedJson _ place => place.map fun place => (place.line, place.column)
  | .malformedYaml _ mark => mark.map fun mark => (mark.line + 1, mark.column + 1)
  | _ => none

/-- The fault that a failure to read YAML amounts to. -/
def ofFailure (depth : Int) : Yaml.Failure → Fault
  | .malformed fault mark => .malformedYaml fault mark
  | .badValue fault => .badValue fault
  | .beyondDepth => .tooDeep depth
  | .tooDeep => .unreadablyDeep

end Fault

def isJson (text : List Char) : Bool := (text.dropWhile Text.isBlank).head? == some '\x7b'

def readJson (text : List Char) : Except Fault Value :=
  match Json.parse text with
  | (.valid, v) => .ok v
  | (.invalid message place, _) => .error (.malformedJson message place)

/-- Reads the YAML value of a text without anchors. A text that holds nothing is an empty mapping. -/
def readYaml (depth : Int) (text : List Char) : Except Fault Value :=
  if holdsAnchor text then .error .anchors
  else
    match Yaml.read depth text with
    | .ok .null => .ok (.obj [])
    | .ok v => .ok v
    | .error failure => .error (.ofFailure depth failure)

/-- The value itself, if it is a document within the limits. -/
def check (limits : Limits) (v : Value) : Except Fault Value :=
  if !v.isObject then .error .notMapping
  else
    match excess? limits.nodes limits.depth v with
    | some .nodes => .error (.tooManyNodes limits.nodes)
    | some .depth => .error (.tooDeep limits.depth)
    | none =>
      if ((v.get? "paths").map (·.isObject)).getD false then .ok v else .error .noPaths

/-- The document that a text holds. -/
def load (limits : Limits) (text : List Char) : Except Fault Value :=
  if limits.size < text.length then .error (.tooLarge text.length limits.size)
  else
    match if isJson text then readJson text else readYaml limits.depth text with
    | .error fault => .error fault
    | .ok v => check limits v

/-- A text with each line break as a line feed. -/
def unifyBreaks : List Char → List Char
  | '\r' :: '\n' :: rest => '\n' :: unifyBreaks rest
  | c :: rest => (if c = '\r' then '\n' else c) :: unifyBreaks rest
  | [] => []

inductive FileFault
  | undecodable (fault : Text.Utf8.Fault)
  | refused (fault : Fault)
deriving Repr

def loadFile (limits : Limits) (octets : List Nat) : Except FileFault Value :=
  match Text.Utf8.decode octets with
  | .error fault => .error (.undecodable fault)
  | .ok text =>
    match load limits (unifyBreaks text) with
    | .ok v => .ok v
    | .error fault => .error (.refused fault)

end PayloadCheck.Document
