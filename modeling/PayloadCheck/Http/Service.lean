import PayloadCheck.Http.Answer
import PayloadCheck.Http.Body
import PayloadCheck.Http.Percent
import PayloadCheck.Http.Route
import PayloadCheck.Json.Print

namespace PayloadCheck.Http

open Json Schema

structure Service where
  bodyLimit : Int
  store : Option Store

/-- Why a request is left without an answer. -/
inductive Failure
  | noStore
  | badValue (fault : Yaml.ValueFault)
  | notFinite
  | rejected (e : InputError)
  | unwritable
  | notWhole
deriving Repr

def Failure.message : Failure → String
  | .noStore => "SpecStore not initialised — call init_spec_store() first"
  | .badValue fault => fault.message
  | .notFinite => "Out of range float values are not JSON compliant"
  | .rejected e => e.fault.message
  | .unwritable => Node.unwritableMessage
  | .notWhole => "surrogates not allowed"

abbrev Reply := Except Failure Answer

/-- The refusal of a record with errors. It would repeat the values that they are about, and fails
where one of these holds a number that is not finite, or else a text that is not made of characters
alone. -/
def reject (errors : List FieldError) : Reply :=
  if !errors.all (·.about.isFinite) then .error .notFinite
  else if !errors.all (·.about.isWhole) then .error .notWhole
  else .ok (.rejected (errors.map (·.error)))

/-- What comes of an operation of a store. -/
def reply {α : Type} (answer : α → Reply) : Except StoreError α → Reply
  | .ok a => answer a
  | .error (.unknownId id) => .ok (.unknownDocument id)
  | .error (.unloadable messages) => .ok (.unloadable messages)
  | .error (.badValue fault) => .error (.badValue fault)
  | .error (.rejected e) => .error (.rejected e)

/-- The answer to a request for the schema of an operation. -/
def schemaReply (id method path : String) : Option Node → Reply
  | none => .ok (.noSchema (Spec.upperCase method) path)
  | some node =>
    match node.write? with
    | none => .error .unwritable
    | some schema =>
      if (render? 0 schema).isNone then .error (.badValue .tooLongInteger)
      else .ok (.requestSchema id (Spec.upperCase method) path schema)

/-- The error of a query without a field. -/
def missingIn (query : List Char) (name : String) : List InputError :=
  if (queryValue? query name).isNone then [⟨[.field "query", .field name], .missing⟩] else []

def contentError : ContentFault → Answer
  | .malformed offset => .rejected [⟨[.field "body", .offset offset], .malformedJson⟩]
  | .unreadable => .unreadable

/-- Checks a payload on its own, or against what the request brings. -/
def validateReply (content : Content) : Reply :=
  match content.record Validation.ofMembers with
  | .error errors => reject errors
  | .ok v =>
    match PayloadCheck.run v.text.toList v.demand with
    | .ok o => .ok (.outcome o)
    | .error e => .error (.rejected e)

def syntaxReply (content : Content) : Reply :=
  match content.record (singleText "text") with
  | .error errors => reject errors
  | .ok text =>
    let d := Json.diagnose text.toList
    .ok (.diagnosis d (errorRanges text.toList d))

/-- Performs an action on the documents of a store. -/
def StoreAction.run (s : Store) (query : List Char) (content : Content) :
    StoreAction → Reply × Store
  | .load =>
    match content.record (singleText "spec_text") with
    | .error errors => (reject errors, s)
    | .ok text =>
      let (loaded, s) := s.load text.toList
      (reply (fun r => .ok (.loaded r)) loaded, s)
  | .list => (reply (fun all => .ok (.documents all)) s.list, s)
  | .remove id =>
    let (removed, s) := s.remove id
    (reply (fun _ => .ok .removed) removed, s)
  | .operations id => (reply (fun all => .ok (.operations all)) (s.operations id), s)
  | .requestSchema id =>
    match queryValue? query "method", queryValue? query "path" with
    | some method, some path =>
      let (node, s) := s.schema id method path
      (reply (schemaReply id method path) node, s)
    | _, _ => (.ok (.rejected (missingIn query "method" ++ missingIn query "path")), s)
  | .check id =>
    match content.record Payload.ofMembers with
    | .error errors => (reject errors, s)
    | .ok payload =>
      let (outcome, s) := s.check id payload.method payload.path payload.text.toList
      (reply (fun o => .ok (.outcome o)) outcome, s)

/-- Performs an action where there may be no store, which only some actions need. -/
def Action.run (store : Option Store) (query : List Char) (content : Content) :
    Action → Reply × Option Store
  | .health => (.ok .healthy, store)
  | .validate => (validateReply content, store)
  | .checkSyntax => (syntaxReply content, store)
  | .onStore a =>
    match store with
    | none => (.error .noStore, none)
    | some s =>
      let (result, s) := a.run s query content
      (result, some s)

def Action.readsBody : Action → Bool
  | .validate => true
  | .checkSyntax => true
  | .onStore .load => true
  | .onStore (.check _) => true
  | _ => false

namespace Service

/-- Answers a request that is not too large. Its body is read before the store is looked for. -/
def dispatch (store : Option Store) (r : Request) : Reply × Option Store :=
  match Route.of r.method (percentDecode r.path) with
  | .nowhere => (.ok .nowhere, store)
  | .moved => (.ok .moved, store)
  | .wrongMethod => (.ok .wrongMethod, store)
  | .action a =>
    if a.readsBody then
      match r.content with
      | .error fault => (.ok (contentError fault), store)
      | .ok content => a.run store r.query content
    else a.run store r.query .absent

/-- Sends an answer, which fails where its body is not made of characters alone. -/
def send (a : Answer) : Reply := if a.body?.all (·.isWhole) then .ok a else .error .notWhole

def handle (service : Service) (r : Request) : Reply × Service :=
  if r.isTooLarge service.bodyLimit then (.ok (.tooLarge service.bodyLimit), service)
  else
    let (result, store) := dispatch service.store r
    (result.bind send, { service with store := store })

end Service

end PayloadCheck.Http
