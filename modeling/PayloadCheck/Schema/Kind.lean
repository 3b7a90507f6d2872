import PayloadCheck.Json.Value

namespace PayloadCheck.Schema

open Json

inductive Kind
  | object
  | array
  | string
  | integer
  | number
  | boolean
  | null
deriving DecidableEq, Repr

namespace Kind

def name : Kind → String
  | .object => "object"
  | .array => "array"
  | .string => "string"
  | .integer => "integer"
  | .number => "number"
  | .boolean => "boolean"
  | .null => "null"

end Kind

/-- The kind of a value. A number with a fraction part or exponent is a `number`, even a whole one. -/
def kindOf : Value → Kind
  | .null => .null
  | .bool _ => .boolean
  | .int _ => .integer
  | .float _ => .number
  | .str _ => .string
  | .arr _ => .array
  | .obj _ => .object

/-- Whether a value has a declared type: that of its own kind, `number` for an integer, or `integer`
for a whole number. -/
def hasType (v : Value) (declared : String) : Bool :=
  (kindOf v).name == declared ||
    match v with
    | .int _ => declared == Kind.number.name
    | .float x => declared == Kind.integer.name && x.isIntegral
    | _ => false

end PayloadCheck.Schema
