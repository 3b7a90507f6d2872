import PayloadCheck.Room
import PayloadCheck.Spec.Resolver

namespace PayloadCheck

open Json Schema Spec

/-- What a payload is checked against, and how many calls there is room for. A schema given outright wins
over the one of an operation. -/
structure Demand where
  schema : Option Value := none
  document : Option Value := none
  method : Option String := none
  path : Option String := none
  room : Nat := standardRoom

namespace Demand

/-- A schema that is given outright, unless reading it ends with an error. -/
def outright (room : Nat) (schema : Value) : Lookups Target :=
  match Node.readError? room schema with
  | some e => throw e
  | none => return .raw schema

def target (d : Demand) : Lookups (Option Target) :=
  match d.schema with
  | some (.obj members) => some <$> outright d.room (.obj members)
  | _ =>
    match d.document, d.method, d.path with
    | some _, some method, some path => Resolver.target d.room method path
    | _, _, _ => return none

/-- The resolver of the document, with nothing looked up in it. -/
def resolver (d : Demand) : Resolver := .ofDocument (d.document.getD .null)

/-- The references of the document, if there is one. -/
def references (d : Demand) (room : Nat) : Option (References Lookups) :=
  d.document.map (Resolver.references room)

end Demand

/-- Checks a payload text. -/
def run (text : List Char) (d : Demand) : Except InputError Outcome :=
  (checkText text d.target d.references d.room d.resolver).1

/-- Checks a value against a schema, its references looked up in a document if there is one. -/
def validate (v schema : Value) (d : Demand) : Except InputError (List SchemaError) :=
  let checking : Lookups (List SchemaError) := do
    let target ← Demand.outright d.room schema
    target.check d.references d.room v
  (checking d.resolver).1

end PayloadCheck
