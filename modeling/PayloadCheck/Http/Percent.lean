import PayloadCheck.Entries
import PayloadCheck.Text.Digit
import PayloadCheck.Text.Split
import PayloadCheck.Text.Utf8

namespace PayloadCheck.Http

/-- The octets that a percent-encoded text stands for. A percent sign without two hexadecimal digits
behind it stands for itself. -/
def percentOctets : List Char → List Nat
  | [] => []
  | '%' :: a :: b :: rest =>
    if Text.isHexDigit a && Text.isHexDigit b then Text.hexNumber [a, b] :: percentOctets rest
    else '%'.toNat :: percentOctets (a :: b :: rest)
  | c :: rest => Text.Utf8.encodeChar c ++ percentOctets rest

/-- The text that a percent-encoded text stands for. -/
def percentDecode (text : List Char) : List Char := Text.Utf8.decodeLossy (percentOctets text)

/-- The text of a name or value in a query, where a plus sign stands for a blank. -/
def queryText (text : List Char) : String :=
  String.ofList (percentDecode (text.map fun c => if c = '+' then ' ' else c))

/-- The name and value of a field of a query; a field without an equals sign has an empty value. -/
def queryField (part : List Char) : String × String :=
  let name := part.takeWhile (· ≠ '=')
  (queryText name, queryText (part.drop (name.length + 1)))

/-- The fields of a query in their order. -/
def queryFields (query : List Char) : List (String × String) :=
  ((Text.split '&' query).filter (!·.isEmpty)).map queryField

/-- The value of a field of a query. The last one counts. -/
def queryValue? (query : List Char) (name : String) : Option String :=
  lookup? name (distinct (queryFields query))

end PayloadCheck.Http
