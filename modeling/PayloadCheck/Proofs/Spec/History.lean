import PayloadCheck.Demand
import PayloadCheck.Proofs.Schema.Faults
import PayloadCheck.Proofs.Schema.Simulation

namespace PayloadCheck.Spec

open Json Schema

/-- Whatever a table of a document holds is read alike when up to so many calls of a room are taken. -/
def Spares (document : Value) (room depth : Nat) : Prop :=
  ∀ entry ∈ tableEntries document, ∀ taken ≤ depth,
    Node.fault? entry.2 (room - taken) = Node.fault? entry.2 room

instance (document : Value) (room depth : Nat) : Decidable (Spares document room depth) :=
  inferInstanceAs (Decidable (∀ entry ∈ tableEntries document, ∀ taken ≤ depth, _ = _))

theorem spares_zero (document : Value) (room : Nat) : Spares document room 0 := by
  intro entry _ taken none
  rw [Nat.le_zero.mp none, Nat.sub_zero]

theorem Spares.mono {document : Value} {room depth less : Nat} (spares : Spares document room depth)
    (fewer : less ≤ depth) : Spares document room less :=
  fun entry among taken within => spares entry among taken (Nat.le_trans within fewer)

/-- A value is read alike wherever the same goes wrong with it, if anything does. -/
theorem readFound_congr {raw : Value} {k room : Nat} (same : Node.fault? raw k = Node.fault? raw room) :
    readFound k (some raw) = readFound room (some raw) := by
  simp only [readFound, Option.bind_some, readSchema, Node.readError?, same]
  cases met : Node.fault? raw room with
  | none =>
    have enough := (Node.fault?_eq_none.mp met).1
    have enough' := (Node.fault?_eq_none.mp (same.trans met)).1
    simp only [Node.read?, Nat.not_lt.mpr enough, Nat.not_lt.mpr enough', if_false]
  | some fault =>
    cases fault with
    | strayName => rfl
    | tooDeep =>
      have beyond : room < Node.calls raw := Node.fault?_blames met
      have beyond' : k < Node.calls raw := Node.fault?_blames (same.trans met)
      simp only [Node.read?, if_pos beyond, if_pos beyond']

/-- References are looked up alike wherever a check gets that takes no more calls than can be spared. -/
theorem readFound_of_spares {document : Value} {k room depth : Nat} (spares : Spares document room depth)
    (within : k ≤ room) (near : room ≤ k + depth) (ref : String) :
    readFound k (rawRef? document ref) = readFound room (rawRef? document ref) := by
  cases named : rawRef? document ref with
  | none => rfl
  | some raw =>
    obtain ⟨name, among⟩ := mem_tableEntries_of_rawRef? named
    have same := spares _ among (room - k) (by omega)
    rw [Nat.sub_sub_self within] at same
    exact readFound_congr same

theorem readFound_ok {room : Nat} {found : Option Value} {node : Option Node}
    (given : readFound room found = .ok node) : node = found.bind (readSchema room) := by
  unfold readFound at given
  split at given
  · exact nomatch given
  · exact (Except.ok.inj given).symm

/-- The references of a document where there is room for so many calls. Reading what a reference names may
end with an error. -/
def tryReferences (room : Nat) (document : Value) : References (Except InputError) :=
  ⟨fun ref => readFound room (rawRef? document ref), tableSize document⟩

theorem Lookups.bind_ok {α β : Type} {x : Lookups α} {f : α → Lookups β} {r : Resolver} {b : β} :
    ((x >>= f) r).1 = .ok b ↔ ∃ a, (x r).1 = .ok a ∧ (f a (x r).2).1 = .ok b := by
  have step : (x >>= f) r = ExceptT.bindCont f (x r).1 (x r).2 := rfl
  rw [step]
  cases (x r).1 with
  | error e =>
    refine iff_of_false ?_ (by rintro ⟨_, ⟨⟩, _⟩)
    intro (same : Except.error e = Except.ok b)
    cases same
  | ok a => simp [ExceptT.bindCont]

namespace Resolver

/-- What is remembered of operations is what the document gives where there is room for so many calls. -/
def BodiesSound (room : Nat) (r : Resolver) : Prop :=
  Memo.Sound r.bodies fun key => readFound room (rawBody? r.document key.1 key.2)

/-- Everything that is remembered is what the document gives where there is room for so many calls. -/
structure Sound (room : Nat) (r : Resolver) : Prop where
  bodies : r.BodiesSound room
  named : Memo.Sound r.named fun ref => readFound room (rawRef? r.document ref)

theorem ofDocument_sound (room : Nat) (document : Value) : (ofDocument document).Sound room :=
  ⟨List.forall_mem_nil _, List.forall_mem_nil _⟩

/-- A computation over a resolver gives an answer, whatever has been remembered of the document, and
remembers nothing but what the document gives. -/
def Answers (document : Value) (room : Nat) {α : Type} (x : Lookups α) (answer : Except InputError α) :
    Prop :=
  ∀ r : Resolver, r.document = document → r.Sound room →
    (x r).1 = answer ∧ (x r).2.document = document ∧ (x r).2.Sound room

/-- Computations over a resolver, one after the other. -/
def simulation (document : Value) (room : Nat) : Simulation Lookups (Except InputError) where
  answers := Answers document room
  return_answers _ _ same sound := ⟨rfl, same, sound⟩
  then_answers {α β x y f g} first next r same sound := by
    obtain ⟨answer, same', sound'⟩ := first r same sound
    have step : (x >>= f) r = ExceptT.bindCont f (x r).1 (x r).2 := rfl
    rw [step, answer]
    cases y with
    | error e => exact ⟨rfl, same', sound'⟩
    | ok a => exact next a _ same' sound'

section

variable (document : Value) (room : Nat)

theorem resolve_answers (method path : String) :
    Answers document room (resolve room method path)
      (readFound room (rawBody? document (lowerCase method) path)) := by
  rintro r rfl sound
  have answer := Memo.remembered_fst sound.bodies (lowerCase method, path)
  exact ⟨answer, rfl, Memo.remembered_sound sound.bodies _, sound.named⟩

variable {document room} in
theorem lookupRef_answers {k depth : Nat} (spares : Spares document room depth) (within : k ≤ room)
    (near : room ≤ k + depth) (ref : String) :
    Answers document room (lookupRef k ref) (readFound room (rawRef? document ref)) := by
  rintro r rfl sound
  have steady : lookupRef k ref r = lookupRef room ref r := by
    unfold lookupRef
    rw [funext (readFound_of_spares spares within near)]
  have answer := Memo.remembered_fst sound.named ref
  have remembered := Memo.remembered_sound sound.named ref
  rw [steady]
  exact ⟨answer, rfl, sound.bodies, remembered⟩

/-- The operations among declarations, unless reading the schema of one ends with an error. -/
def trySummaries : List Declaration → Except InputError (List Operation)
  | [] => return []
  | d :: rest => do
    let node ← readFound room (rawBody? document (lowerCase d.method) d.path)
    let others ← trySummaries rest
    return d.operation node.isSome :: others

variable {document room} in
theorem trySummaries_ok {declared : List Declaration} {listed : List Operation}
    (given : trySummaries document room declared = .ok listed) :
    listed = declared.map fun d => d.operation (Spec.resolve room document d.method d.path).isSome := by
  induction declared generalizing listed with
  | nil => exact (Except.ok.inj given).symm
  | cons d rest ih =>
    rw [trySummaries] at given
    cases atBody : readFound room (rawBody? document (lowerCase d.method) d.path) with
    | error e =>
      rw [atBody] at given
      exact nomatch given
    | ok node =>
      cases others : trySummaries document room rest with
      | error e =>
        rw [atBody, others] at given
        exact nomatch given
      | ok summaries =>
        rw [atBody, others] at given
        obtain rfl := Except.ok.inj given
        rw [List.map_cons, ih others, readFound_ok atBody]
        rfl

theorem summarise_answers (declared : List Declaration) :
    Answers document room (summarise room declared) (trySummaries document room declared) := by
  induction declared with
  | nil => exact (simulation document room).return_answers []
  | cons d rest ih =>
    refine (simulation document room).then_answers (resolve_answers document room d.method d.path)
      fun node => ?_
    exact (simulation document room).then_answers ih fun others =>
      (simulation document room).return_answers _

theorem operations_answers :
    Answers document room (operations room) (trySummaries document room (declarations document)) := by
  rintro r rfl sound
  exact summarise_answers _ room _ r rfl sound

/-- What a payload for an operation is checked against, unless reading it ends with an error. -/
def tryTarget (method path : String) : Except InputError (Option Target) :=
  if method = "" || path = "" then return none
  else do
    let node ← readFound room (rawBody? document (lowerCase method) path)
    return node.map .node

theorem target_answers (method path : String) :
    Answers document room (target room method path) (tryTarget document room method path) := by
  unfold target tryTarget
  split
  · exact (simulation document room).return_answers none
  · refine (simulation document room).then_answers (resolve_answers document room method path)
      fun node => ?_
    exact (simulation document room).return_answers (node.map Target.node)

variable {room} in
/-- The references of a document, if there is one, answer as if nothing had been looked up before and
nothing of the room had been taken. -/
theorem references_mirror {depth : Nat} {document : Option Value}
    (spares : ∀ spec ∈ document, Spares spec room depth) :
    (simulation (document.getD .null) room).MirrorsDown (fun k => document.map (references k))
      (steady (document.map (tryReferences room))) room depth := by
  intro k within near
  cases document with
  | none => exact .none
  | some spec => exact .some (lookupRef_answers (spares spec rfl) within near)

variable {document room} in
/-- Checking a payload in a resolver has the outcome that it has without a memory. -/
theorem check_answers {text : List Char}
    (spares : Spares document room (Json.parse text).2.callDepth) (method path : String) :
    Answers document room (check room method path text)
      (checkText text (tryTarget document room method path)
        (steady (some (tryReferences room document))) room) := by
  rintro r rfl sound
  have known : ∀ spec ∈ some r.document, Spares spec room (Json.parse text).2.callDepth := by
    simpa using spares
  have mirrors := references_mirror known
  exact Simulation.checkText_answers (target_answers r.document room method path) mirrors r rfl sound

/-- Two resolvers of a document remember the same of references; of operations they may remember more or
less, but nothing else than the document gives. -/
structure Twins (r r' : Resolver) : Prop where
  left : r.document = document
  right : r'.document = document
  named : r.named = r'.named
  bodies : r.BodiesSound room
  others : r'.BodiesSound room

/-- Computations over twins, one after the other: the answers are the same, whatever wrong answers are
remembered of references. -/
def twins : Simulation Lookups Lookups where
  answers x y := ∀ r r', Twins document room r r' →
    (x r).1 = (y r').1 ∧ Twins document room (x r).2 (y r').2
  return_answers _ _ _ same := ⟨rfl, same⟩
  then_answers {α β x y f g} first next r r' same := by
    obtain ⟨answer, same'⟩ := first r r' same
    have left : (x >>= f) r = ExceptT.bindCont f (x r).1 (x r).2 := rfl
    have right : (y >>= g) r' = ExceptT.bindCont g (y r').1 (y r').2 := rfl
    rw [left, right, answer]
    cases (y r').1 with
    | error e => exact ⟨rfl, same'⟩
    | ok a => exact next a _ _ same'

theorem lookupRef_twins (k : Nat) (ref : String) :
    (twins document room).answers (lookupRef k ref) (lookupRef k ref) := by
  rintro ⟨_, bodies, named⟩ ⟨_, bodies', named'⟩ ⟨left, right, same, sound, sound'⟩
  dsimp only at left right same
  subst left right same
  exact ⟨rfl, rfl, rfl, rfl, sound, sound'⟩

theorem resolve_twins (method path : String) :
    (twins document room).answers (resolve room method path) (resolve room method path) := by
  rintro ⟨_, bodies, named⟩ ⟨_, bodies', named'⟩ ⟨left, right, same, sound, sound'⟩
  dsimp only at left right same
  subst left right same
  have here := Memo.remembered_fst sound (lowerCase method, path)
  have there := Memo.remembered_fst sound' (lowerCase method, path)
  exact ⟨here.trans there.symm, rfl, rfl, rfl, Memo.remembered_sound sound _,
    Memo.remembered_sound sound' _⟩

theorem target_twins (method path : String) :
    (twins document room).answers (target room method path) (target room method path) := by
  unfold target
  split
  · exact (twins document room).return_answers none
  · refine (twins document room).then_answers (resolve_twins document room method path) fun node => ?_
    exact (twins document room).return_answers (node.map Target.node)

variable {document room} in
/-- A payload gets the same outcome from twins, which are twins afterwards: also where it takes so many calls
that references are given up. -/
theorem check_twins (method path : String) (text : List Char) {r r' : Resolver}
    (same : Twins document room r r') :
    (check room method path text r).1 = (check room method path text r').1 ∧
      Twins document room (check room method path text r).2 (check room method path text r').2 := by
  have mirrors : (twins document room).MirrorsDown (fun k => some (references k document))
      (fun k => some (references k document)) room (Json.parse text).2.callDepth :=
    fun k _ _ => .some fun ref => lookupRef_twins document room k ref
  have found := target_twins document room method path
  have left : check room method path text r =
      checkText text (target room method path) (fun k => some (references k document)) room r := by
    rw [check, same.left]
  have right : check room method path text r' =
      checkText text (target room method path) (fun k => some (references k document)) room r' := by
    rw [check, same.right]
  rw [left, right]
  exact Simulation.checkText_answers found mirrors r r' same

variable {room} in
/-- Whatever a payload is checked against, the document stays, and so does what is remembered of its
operations. -/
theorem check_keeps {r : Resolver} (bodies : r.BodiesSound room) (method path : String)
    (text : List Char) :
    (check room method path text r).2.document = r.document ∧
      (check room method path text r).2.BodiesSound room := by
  have itself : Twins r.document room r r := ⟨rfl, rfl, rfl, bodies, bodies⟩
  obtain ⟨_, left, _, _, kept, _⟩ := check_twins method path text itself
  exact ⟨left, kept⟩

/-- What a resolver can be asked. The method and the path of an operation may be missing. -/
inductive Query
  | resolve (method path : Option String)
  | lookupRef (ref : String)
  | operations

inductive Reply
  | schema (node : Option Node)
  | operations (all : List Operation)

/-- Answers a query, and remembers what has been looked up for it. -/
def ask : Query → Lookups Reply
  | .resolve method path => .schema <$> resolve? room method path
  | .lookupRef ref => .schema <$> lookupRef room ref
  | .operations => .operations <$> operations room

/-- Answers queries one after the other, also after one that has ended with an error. -/
def askAll (r : Resolver) : List Query → List (Except InputError Reply) × Resolver
  | [] => ([], r)
  | q :: rest =>
    let (reply, r) := ask room q r
    let (others, r) := askAll r rest
    (reply :: others, r)

/-- What a document replies to a query without a memory. -/
def reply : Query → Except InputError Reply
  | .resolve (some method) (some path) =>
    .schema <$> readFound room (rawBody? document (lowerCase method) path)
  | .resolve _ _ => return .schema none
  | .lookupRef ref => .schema <$> readFound room (rawRef? document ref)
  | .operations => .operations <$> trySummaries document room (declarations document)

theorem map_answers {α β : Type} {x : Lookups α} {y : Except InputError α}
    (answers : Answers document room x y) (f : α → β) : Answers document room (f <$> x) (f <$> y) := by
  rw [map_eq_pure_bind, map_eq_pure_bind]
  exact (simulation document room).then_answers answers fun a =>
    (simulation document room).return_answers (f a)

theorem ask_answers (q : Query) : Answers document room (ask room q) (reply document room q) := by
  cases q with
  | resolve method path =>
    rcases method with _ | method
    · exact (simulation document room).return_answers (Reply.schema none)
    rcases path with _ | path
    · exact (simulation document room).return_answers (Reply.schema none)
    exact map_answers _ _ (resolve_answers document room method path) _
  | lookupRef ref =>
    have answers := lookupRef_answers (spares_zero document room) (Nat.le_refl room) (by omega) ref
    exact map_answers _ _ answers _
  | operations => exact map_answers _ _ (operations_answers document room) _

theorem askAll_answers (queries : List Query) {r : Resolver} (same : r.document = document)
    (sound : r.Sound room) :
    (askAll room r queries).1 = queries.map (reply document room) ∧
      (askAll room r queries).2.document = document ∧ (askAll room r queries).2.Sound room := by
  induction queries generalizing r with
  | nil => exact ⟨rfl, same, sound⟩
  | cons q rest ih =>
    obtain ⟨first, same', sound'⟩ := ask_answers document room q r same sound
    obtain ⟨others, same'', sound''⟩ := ih same' sound'
    exact ⟨congrArg₂ List.cons first others, same'', sound''⟩

/-- The first reply of a fresh resolver is that of the document. -/
theorem ask_ofDocument (q : Query) : (ask room q (ofDocument document)).1 = reply document room q :=
  (ask_answers document room q _ rfl (ofDocument_sound room document)).1

end

end Resolver

end PayloadCheck.Spec
