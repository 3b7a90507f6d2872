import PayloadCheck.Diagnosis
import PayloadCheck.Highlight.Locate
import PayloadCheck.Highlight.Merge
import PayloadCheck.Json.Parse
import PayloadCheck.Schema.Check

namespace PayloadCheck

open Json Schema

structure Outcome where
  syntaxDiagnosis : Diagnosis
  ranges : List Highlight.Range
  schemaErrors : List SchemaError
  schemaChecked : Bool
deriving Repr

/-- Whether a payload is as it should be. -/
def Outcome.valid (o : Outcome) : Bool := o.syntaxDiagnosis.isValid && o.schemaErrors.isEmpty

/-- A schema to check against: as a document has it, or already read. -/
inductive Target
  | raw (v : Value)
  | node (n : Node)

def errorRanges (text : List Char) (d : Diagnosis) : List Highlight.Range :=
  Highlight.merge (Highlight.locate text d.offset?)

/-- Checks a value against a schema to be read, or one that has been read. -/
def Target.check {m : Type → Type} [Monad m] (references : Nat → Option (References m)) (room : Nat)
    (v : Value) : Target → m (List SchemaError)
  | .raw schema => checkRaw references room v schema
  | .node n => Schema.check references room v n

/-- Checks a text against a schema, which is looked for if the text is valid. A blank text is valid
and has nothing to check. -/
def checkText {m : Type → Type} [Monad m] (text : List Char) (target : m (Option Target))
    (references : Nat → Option (References m)) (room : Nat) : m Outcome :=
  match Json.parse text with
  | (.invalid message place, _) =>
    let d := Diagnosis.invalid message place
    return ⟨d, errorRanges text d, [], false⟩
  | (.valid, v) =>
    if Text.allBlank text then return ⟨.valid, [], [], false⟩
    else do
      match ← target with
      | none => return ⟨.valid, [], [], false⟩
      | some target => return ⟨.valid, [], ← target.check references room v, true⟩

end PayloadCheck
