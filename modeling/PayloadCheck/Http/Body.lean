import PayloadCheck.Demand
import PayloadCheck.Http.Request
import PayloadCheck.InputError
import PayloadCheck.Json.Parse
import PayloadCheck.Text.Split
import PayloadCheck.Text.Utf8

namespace PayloadCheck.Http

open Json

/-- What the body of a request is: nothing at all, a JSON value, or octets of another type. -/
inductive Content
  | absent
  | value (v : Value)
  | octets
deriving Repr

/-- Why a body of JSON cannot be read: it is malformed at an offset, or holds what is beyond the
limits of reading. -/
inductive ContentFault
  | malformed (offset : Nat)
  | unreadable
deriving DecidableEq, Repr

/-- The media type of a content type, which may have parameters behind it. -/
def mediaType (contentType : List Char) : List Char :=
  Text.lower (Text.strip (contentType.takeWhile (· ≠ ';')))

/-- Whether a media type is that of JSON, or of a format on top of it. -/
def isJsonType (media : List Char) : Bool :=
  match Text.split '/' media with
  | [kind, subtype] =>
    kind = "application".toList && (subtype = "json".toList || "+json".toList.isSuffixOf subtype)
  | _ => false

/-- Octets without the mark that some writers put at the front of a text. -/
def withoutMark : List Nat → List Nat
  | 0xEF :: 0xBB :: 0xBF :: rest => rest
  | octets => octets

def readJson (octets : List Nat) : Except ContentFault Value :=
  match Text.Utf8.decode (withoutMark octets) with
  | .error _ => .error .unreadable
  | .ok text =>
    match decode ⟨nestingLimit, true⟩ text with
    | .ok v => .ok v
    | .error (.malformed _ rest) => .error (.malformed (offsetOf text rest))
    | .error _ => .error .unreadable

/-- What the body of a request is. -/
def Request.content (r : Request) : Except ContentFault Content :=
  if r.body.isEmpty then .ok .absent
  else if (r.header? "content-type").any (isJsonType <| mediaType ·) then
    (readJson r.body).map .value
  else .ok .octets

/-- An error in a field, and the value that it is about. -/
structure FieldError where
  error : InputError
  about : Value
deriving Repr

abbrev Members := List (String × Value)

def errorsOf {α : Type} : Except FieldError α → List FieldError
  | .ok _ => []
  | .error e => [e]

def fieldError (name : String) (fault : InputFault) (about : Value) : FieldError :=
  ⟨⟨[.field "body", .field name], fault⟩, about⟩

namespace Members

/-- The text in a field, which must be there. -/
def text (members : Members) (name : String) : Except FieldError String :=
  match lookup? name members with
  | none => .error (fieldError name .missing (.obj members))
  | some (.str s) => .ok s
  | some v => .error (fieldError name .notString v)

/-- The text in a field, which may be missing or null. -/
def text? (members : Members) (name : String) : Except FieldError (Option String) :=
  match lookup? name members with
  | none => .ok none
  | some .null => .ok none
  | some (.str s) => .ok (some s)
  | some v => .error (fieldError name .notString v)

/-- The object in a field, which may be missing or null. -/
def object? (members : Members) (name : String) : Except FieldError (Option Value) :=
  match lookup? name members with
  | none => .ok none
  | some .null => .ok none
  | some (.obj inner) => .ok (some (.obj inner))
  | some v => .error (fieldError name .notDictionary v)

end Members

/-- A payload, and what it is checked against. -/
structure Validation where
  text : String
  demand : Demand

/-- A payload for an operation of a document in the store. -/
structure Payload where
  method : String
  path : String
  text : String
deriving DecidableEq, Repr

/-- The name of the field with the schema: a second name counts where the first is missing. -/
def schemaField (members : Members) : String :=
  if (lookup? "schema" members).isNone && (lookup? "body_schema" members).isSome then "body_schema"
  else "schema"

def Validation.ofMembers (members : Members) : Except (List FieldError) Validation :=
  match members.text "text", members.object? (schemaField members), members.object? "spec",
      members.text? "method", members.text? "path" with
  | .ok text, .ok schema, .ok document, .ok method, .ok path =>
    .ok ⟨text, { schema := schema, document := document, method := method, path := path }⟩
  | text, schema, document, method, path =>
    .error (errorsOf text ++ errorsOf schema ++ errorsOf document ++ errorsOf method ++
      errorsOf path)

def Payload.ofMembers (members : Members) : Except (List FieldError) Payload :=
  match members.text "method", members.text "path", members.text "text" with
  | .ok method, .ok path, .ok text => .ok ⟨method, path, text⟩
  | method, path, text => .error (errorsOf method ++ errorsOf path ++ errorsOf text)

/-- A record with a single text. -/
def singleText (name : String) (members : Members) : Except (List FieldError) String :=
  match members.text name with
  | .ok s => .ok s
  | .error e => .error [e]

/-- The record in the content of a body, which must be an object. -/
def Content.record {α : Type} (ofMembers : Members → Except (List FieldError) α) :
    Content → Except (List FieldError) α
  | .absent => .error [⟨⟨[.field "body"], .missing⟩, .null⟩]
  | .octets => .error [⟨⟨[.field "body"], .notRecord⟩, .null⟩]
  | .value (.obj members) => ofMembers members
  | .value v => .error [⟨⟨[.field "body"], .notRecord⟩, v⟩]

end PayloadCheck.Http
