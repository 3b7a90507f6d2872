import PayloadCheck.Json.Display
import PayloadCheck.Yaml.Cursor

namespace PayloadCheck.Yaml

/-- What is wrong with a text. -/
inductive Fault
  | unprintable (ch : Char)
  | strayCharacter (ch : Char)
  | keyWithoutValue
  | entryNotAllowed
  | keyNotAllowed
  | valueNotAllowed
  | directiveName (ch : Char)
  | directiveRest (ch : Char)
  | versionNumber (ch : Char)
  | anchorName (ch : Char)
  | tagHandle (ch : Char)
  | tagAddress (ch : Char)
  | tagRest (ch : Char)
  | tagEscape
  | indentationOfZero
  | blockHeader (ch : Char)
  | deeperFirstLine
  | unclosedQuote
  | markerInQuote
  | shortEscape (digits : Nat)
  | unknownEscape (ch : Char)
  | missingDocumentStart
  | contentAfterEnd
  | missingNode
  | undefinedHandle
  | repeatedVersion
  | incompatibleVersion
  | repeatedHandle
  | unclosedBlock
  | missingSeparator (closing : Char)
  | undefinedAlias
  | secondDocument
  | repeatedKey
  | unfitKey
  | mergeOfOther
  | wrongKind
  | unknownContent
  | notTimestamp
deriving DecidableEq, Repr

/-- What is wrong with the value of a scalar, or with the text of a value. -/
inductive ValueFault
  | year (n : Nat)
  | month
  | day
  | hour
  | minute
  | second
  | clockOffset (minutes : Int)
  | codePoint
  | notInteger (radix : Nat) (text : List Char)
  | notFloat (text : List Char)
  | notBoolean (text : List Char)
  | tooManyDigits (count : Nat)
  | tooLongInteger
  | weightBeyondRange
  | unknownVersion (major minor : Nat)
deriving DecidableEq, Repr

/-- Why a text is not read. -/
inductive Failure
  | malformed (fault : Fault) (mark : Option Mark)
  | badValue (fault : ValueFault)
  | beyondDepth
  | tooDeep
deriving DecidableEq, Repr

def Failure.at (fault : Fault) (mark : Mark) : Failure := .malformed fault (some mark)

namespace Fault

def quote (ch : Char) : String := String.ofList (Json.shownString (String.ofList [ch]))

def message : Fault → String
  | .unprintable ch => "character " ++ quote ch ++ " is not allowed"
  | .strayCharacter ch => "character " ++ quote ch ++ " cannot start a token"
  | .keyWithoutValue => "no ':' after a key"
  | .entryNotAllowed => "a sequence entry is not allowed here"
  | .keyNotAllowed => "a mapping key is not allowed here"
  | .valueNotAllowed => "a mapping value is not allowed here"
  | .directiveName ch => "a directive needs a name, not " ++ quote ch
  | .directiveRest ch => "unexpected " ++ quote ch ++ " in a directive"
  | .versionNumber ch => "a version is two numbers and a point, without " ++ quote ch
  | .anchorName ch => "unexpected " ++ quote ch ++ " in the name of an anchor"
  | .tagHandle ch => "unexpected " ++ quote ch ++ " in the handle of a tag"
  | .tagAddress ch => "unexpected " ++ quote ch ++ " in the address of a tag"
  | .tagRest ch => "unexpected " ++ quote ch ++ " after a tag"
  | .tagEscape => "an escape in a tag is not readable"
  | .indentationOfZero => "an indentation is at least one"
  | .blockHeader ch => "unexpected " ++ quote ch ++ " in the header of a block"
  | .deeperFirstLine => "a later line of a block is indented more than its first"
  | .unclosedQuote => "a quote is not closed"
  | .markerInQuote => "a document ends inside quotes"
  | .shortEscape digits => "an escape needs " ++ toString digits ++ " hexadecimal digits"
  | .unknownEscape ch => "no escape is written with " ++ quote ch
  | .missingDocumentStart => "the start of a document is missing"
  | .contentAfterEnd => "content on the line that ends a document"
  | .missingNode => "a node is missing"
  | .undefinedHandle => "the handle of a tag is not declared"
  | .repeatedVersion => "a version is declared twice"
  | .incompatibleVersion => "the declared version is not supported"
  | .repeatedHandle => "the handle of a tag is declared twice"
  | .unclosedBlock => "a block does not end here"
  | .missingSeparator closing => "neither ',' nor " ++ quote closing
  | .undefinedAlias => "an alias has no anchor"
  | .secondDocument => "a second document"
  | .repeatedKey => "a key is repeated"
  | .unfitKey => "a value cannot be a key"
  | .mergeOfOther => "what is merged is no mapping"
  | .wrongKind => "the tag does not fit the node"
  | .unknownContent => "the content of an unknown tag is not readable"
  | .notTimestamp => "a timestamp is not readable"

end Fault

/-- The names of two units of a time span, those of zero left out. -/
def spanText (days seconds : Int) : String :=
  let parts := (if days = 0 then [] else ["days=" ++ toString days]) ++
    (if seconds = 0 then [] else ["seconds=" ++ toString seconds])
  "datetime.timedelta(" ++ ", ".intercalate parts ++ ")"

namespace ValueFault

def message : ValueFault → String
  | .year n => "year " ++ toString n ++ " is out of range"
  | .month => "month must be in 1..12"
  | .day => "day is out of range for month"
  | .hour => "hour must be in 0..23"
  | .minute => "minute must be in 0..59"
  | .second => "second must be in 0..59"
  | .clockOffset minutes =>
    "offset must be a timedelta strictly between -timedelta(hours=24) and timedelta(hours=24), not " ++
      spanText (minutes / 1440) (minutes % 1440 * 60) ++ "."
  | .codePoint => "chr() arg not in range(0x110000)"
  | .notInteger radix text =>
    "invalid literal for int() with base " ++ toString radix ++ ": " ++
      String.ofList (Json.shownString (String.ofList text))
  | .notFloat text =>
    "could not convert string to float: " ++ String.ofList (Json.shownString (String.ofList text))
  | .notBoolean text => String.ofList text
  | .tooManyDigits count => Number.tooManyDigitsMessage count
  | .tooLongInteger => Number.tooLongMessage
  | .weightBeyondRange => "int too large to convert to float"
  | .unknownVersion major minor => "(" ++ toString major ++ ", " ++ toString minor ++ ")"

end ValueFault

end PayloadCheck.Yaml
