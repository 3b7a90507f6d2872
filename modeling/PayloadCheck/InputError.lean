namespace PayloadCheck

/-- What is wrong with a field. -/
inductive InputFault
  | missing
  | notBoolean
  | notString
  | notText
  | notDictionary
  | notRecord
  | malformedJson
  | belowMinimum (least : Int)
  | emptyRange (start stop : Int)
  | validWithDetails
  | invalidWithoutMessage
  | partialPosition
  | notInteger
  | integerTooLong
deriving DecidableEq, Repr

namespace InputFault

def kind : InputFault → String
  | .missing => "missing"
  | .notBoolean => "bool_type"
  | .notString => "string_type"
  | .notText => "string_unicode"
  | .notDictionary => "dict_type"
  | .notRecord => "model_attributes_type"
  | .malformedJson => "json_invalid"
  | .belowMinimum _ => "greater_than_equal"
  | .emptyRange _ _ => "value_error"
  | .validWithDetails => "value_error"
  | .invalidWithoutMessage => "value_error"
  | .partialPosition => "value_error"
  | .notInteger => "int_parsing"
  | .integerTooLong => "int_parsing_size"

def message : InputFault → String
  | .missing => "Field required"
  | .notBoolean => "Input should be a valid boolean"
  | .notString => "Input should be a valid string"
  | .notText => "Input should be a valid string, unable to parse raw data as a unicode string"
  | .notDictionary => "Input should be a valid dictionary"
  | .notRecord => "Input should be a valid dictionary or object to extract fields from"
  | .malformedJson => "JSON decode error"
  | .belowMinimum least => "Input should be greater than or equal to " ++ toString least
  | .emptyRange start stop =>
    "Value error, empty or inverted range [" ++ toString start ++ ", " ++ toString stop ++ ")"
  | .validWithDetails => "Value error, a valid diagnosis cannot carry an error or a position"
  | .invalidWithoutMessage => "Value error, an invalid diagnosis needs an error message"
  | .partialPosition => "Value error, offset, line and column must be set together"
  | .notInteger => "Input should be a valid integer, unable to parse string as an integer"
  | .integerTooLong => "Unable to parse input string as an integer, exceeded maximum size"

end InputFault

/-- A step towards the faulty field. -/
inductive InputStep
  | field (name : String)
  | offset (n : Nat)
deriving DecidableEq, Repr

/-- A fault and the way to its field; the whole input is at the empty way. -/
structure InputError where
  place : List InputStep
  fault : InputFault
deriving DecidableEq, Repr

end PayloadCheck
