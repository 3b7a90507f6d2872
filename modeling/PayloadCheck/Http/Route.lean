import PayloadCheck.Text.Split

namespace PayloadCheck.Http

/-- What a path names. -/
inductive Resource
  | health
  | validation
  | syntaxCheck
  | documents
  | document (id : String)
  | operations (id : String)
  | requestSchema (id : String)
  | payloads (id : String)
deriving DecidableEq, Repr

/-- What is done with the documents of a store. -/
inductive StoreAction
  | load
  | list
  | remove (id : String)
  | operations (id : String)
  | requestSchema (id : String)
  | check (id : String)
deriving DecidableEq, Repr

/-- What is done with a resource. -/
inductive Action
  | health
  | validate
  | checkSyntax
  | onStore (a : StoreAction)
deriving DecidableEq, Repr

namespace Resource

/-- The resource that the parts of a path name. An id is not empty. -/
def ofParts? : List String → Option Resource
  | ["", "health"] => some .health
  | ["", "validate"] => some .validation
  | ["", "validate", "syntax"] => some .syntaxCheck
  | ["", "specs"] => some .documents
  | ["", "specs", id] => if id = "" then none else some (.document id)
  | ["", "specs", id, leaf] =>
    if id = "" then none
    else if leaf = "operations" then some (.operations id)
    else if leaf = "schema" then some (.requestSchema id)
    else if leaf = "validate" then some (.payloads id)
    else none
  | _ => none

def ofExactPath? (path : List Char) : Option Resource :=
  ofParts? ((Text.split '/' path).map String.ofList)

/-- The path without a line feed at its end. -/
def unended (path : List Char) : List Char :=
  if path.getLast? = some '\n' then path.dropLast else path

/-- The resource that a path names. A line feed at the end counts only where it is part of an id. -/
def ofPath? (path : List Char) : Option Resource :=
  (ofExactPath? path).or (ofExactPath? (unended path))

def action? : Resource → String → Option Action
  | .health, "GET" => some .health
  | .validation, "POST" => some .validate
  | .syntaxCheck, "POST" => some .checkSyntax
  | .documents, "POST" => some (.onStore .load)
  | .documents, "GET" => some (.onStore .list)
  | .document id, "DELETE" => some (.onStore (.remove id))
  | .operations id, "GET" => some (.onStore (.operations id))
  | .requestSchema id, "GET" => some (.onStore (.requestSchema id))
  | .payloads id, "POST" => some (.onStore (.check id))
  | _, _ => none

end Resource

def withoutSlashes (path : List Char) : List Char :=
  (path.reverse.dropWhile (· = '/')).reverse

/-- Where a request leads. -/
inductive Route
  | action (a : Action)
  | wrongMethod
  | moved
  | nowhere
deriving DecidableEq, Repr

/-- Where a method and a path lead. A path with slashes behind one that names a resource leads on to
that one. -/
def Route.of (method : String) (path : List Char) : Route :=
  match Resource.ofPath? path with
  | some resource =>
    match resource.action? method with
    | some a => .action a
    | none => .wrongMethod
  | none =>
    if path.getLast? = some '/' && (Resource.ofPath? (withoutSlashes path)).isSome then .moved
    else .nowhere

end PayloadCheck.Http
