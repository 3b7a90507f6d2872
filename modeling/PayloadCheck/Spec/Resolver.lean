import PayloadCheck.Outcome
import PayloadCheck.Spec.Document

namespace PayloadCheck.Spec

open Json Schema

/-- The answers of a function at some of its arguments. -/
abbrev Memo (α β : Type) := List (α × β)

namespace Memo

variable {α β ε : Type} [DecidableEq α]

def known? (memo : Memo α β) (a : α) : Option β :=
  (List.find? (fun entry => decide (entry.1 = a)) memo).map (·.2)

/-- The remembered answer at an argument, or else a new one, which is remembered. An error is not. -/
def remembered (memo : Memo α β) (a : α) (answer : α → Except ε β) : Except ε β × Memo α β :=
  match memo.known? a with
  | some b => (.ok b, memo)
  | none =>
    match answer a with
    | .ok b => (.ok b, (a, b) :: memo)
    | .error e => (.error e, memo)

/-- Every remembered answer is the one the function gives. -/
def Sound (memo : Memo α β) (answer : α → Except ε β) : Prop :=
  ∀ entry ∈ memo, answer entry.1 = .ok entry.2

theorem remembered_fst {memo : Memo α β} {answer : α → Except ε β} (sound : memo.Sound answer) (a : α) :
    (memo.remembered a answer).1 = answer a := by
  unfold remembered
  split
  · rename_i b found
    obtain ⟨entry, hit, rfl⟩ := Option.map_eq_some_iff.mp found
    have same : entry.1 = a := by simpa using List.find?_some hit
    rw [← same, sound entry (List.mem_of_find?_eq_some hit)]
  · split
    · rename_i given
      exact given.symm
    · rename_i refused
      exact refused.symm

theorem remembered_sound {memo : Memo α β} {answer : α → Except ε β} (sound : memo.Sound answer)
    (a : α) : (memo.remembered a answer).2.Sound answer := by
  unfold remembered
  split
  · exact sound
  · split
    · rename_i b given
      intro entry member
      rcases List.mem_cons.mp member with rfl | old
      · exact given
      · exact sound entry old
    · exact sound

end Memo

/-- A document and the schemas found in it: of operations, by method in small letters and path, and
of references. -/
structure Resolver where
  document : Value
  bodies : Memo (String × String) (Option Node)
  named : Memo String (Option Node)

/-- Looking schemas up: what is found is remembered, and reading a schema may end with an error. -/
abbrev Lookups := ExceptT InputError (StateM Resolver)

namespace Resolver

def ofDocument (document : Value) : Resolver := ⟨document, [], []⟩

/-- The schema of the body of an operation. -/
def resolve (room : Nat) (method path : String) : Lookups (Option Node) := fun r =>
  let (node, bodies) := r.bodies.remembered (lowerCase method, path) fun key =>
    readFound room (rawBody? r.document key.1 key.2)
  (node, { r with bodies := bodies })

/-- The schema that a reference names. Where there is no room to read it, there is none, and that is
remembered as well. -/
def lookupRef (room : Nat) (ref : String) : Lookups (Option Node) := fun r =>
  let (node, named) := r.named.remembered ref fun ref => readFound room (rawRef? r.document ref)
  (node, { r with named := named })

/-- Resolves an operation whose method and path may be missing. -/
def resolve? (room : Nat) : (method path : Option String) → Lookups (Option Node)
  | some method, some path => resolve room method path
  | _, _ => return none

/-- The summaries of declared operations, each of which is resolved. -/
def summarise (room : Nat) : List Declaration → Lookups (List Operation)
  | [] => return []
  | d :: rest => do
    let node ← resolve room d.method d.path
    let others ← summarise room rest
    return d.operation node.isSome :: others

/-- The operations of the document. -/
def operations (room : Nat) : Lookups (List Operation) := fun r =>
  summarise room (declarations r.document) r

/-- The references of a document, looked up in its resolver where there is room for so many calls. -/
def references (room : Nat) (document : Value) : References Lookups :=
  ⟨lookupRef room, tableSize document⟩

/-- What a payload for an operation is checked against; an empty method or path names none. -/
def target (room : Nat) (method path : String) : Lookups (Option Target) :=
  if method = "" || path = "" then return none
  else do
    let node ← resolve room method path
    return node.map .node

/-- Checks a payload text against the body of an operation. -/
def check (room : Nat) (method path : String) (text : List Char) : Lookups Outcome := fun r =>
  checkText text (target room method path) (fun room => some (references room r.document)) room r

end Resolver

end PayloadCheck.Spec
