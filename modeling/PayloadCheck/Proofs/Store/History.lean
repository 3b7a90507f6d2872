import PayloadCheck.Proofs.Store.Run

namespace PayloadCheck

open Json Schema

namespace Store

/-- Nothing is remembered of a document but what it gives. -/
def Unspoiled (s : Store) (id : String) : Prop :=
  ∀ entry, s.find? id = some entry → entry.resolver.Sound s.limits.room

/-- A payload that is checked against an operation of a document leaves room to read whatever the document's
tables hold. -/
def Command.LeavesRoom (s : Store) (id : String) : Command → Prop
  | .check about _ _ text => about = id → ∀ document ∈ (s.document id).toOption,
      Spec.Spares document s.limits.room (Json.parse text).2.callDepth
  | _ => True

/-- Every payload that is checked in a run against an operation of a document leaves such room. -/
def LeavesRoom (s : Store) (id : String) : List Command → Prop
  | [] => True
  | command :: rest => command.LeavesRoom s id ∧ (s.perform command).2.LeavesRoom id rest

instance (s : Store) (id : String) (command : Command) : Decidable (command.LeavesRoom s id) :=
  match command with
  | .check about _ _ _ => inferInstanceAs (Decidable (about = id → ∀ document ∈ (s.document id).toOption, _))
  | .load _ | .list | .document _ | .operations _ | .remove _ | .schema _ _ _ | .checkAlone _ _ =>
    isTrue trivial

def decideLeavesRoom (id : String) : (commands : List Command) → (s : Store) →
    Decidable (s.LeavesRoom id commands)
  | [], _ => isTrue trivial
  | command :: rest, s =>
    let _ := decideLeavesRoom id rest (s.perform command).2
    inferInstanceAs (Decidable (command.LeavesRoom s id ∧ (s.perform command).2.LeavesRoom id rest))

instance (s : Store) (id : String) (commands : List Command) : Decidable (s.LeavesRoom id commands) :=
  decideLeavesRoom id commands s

theorem leavesRoom_append {s : Store} {id : String} {first then_ : List Command} :
    s.LeavesRoom id (first ++ then_) ↔ s.LeavesRoom id first ∧ (s.after first).LeavesRoom id then_ := by
  induction first generalizing s with
  | nil => simp [LeavesRoom, after]
  | cons command rest ih =>
    rw [List.cons_append, LeavesRoom, LeavesRoom, ih, and_assoc]
    rfl

theorem find?_put (s : Store) (id other : String) (entry : Entry) :
    (s.put id entry).find? other = if id = other then some entry else s.find? other :=
  lookup?_assign id other entry s.entries

theorem Command.LeavesRoom.spares {s : Store} {id method path : String} {text : List Char} {entry : Entry}
    (roomy : (Command.check id method path text).LeavesRoom s id) (found : s.find? id = some entry) :
    Spec.Spares entry.resolver.document s.limits.room (Json.parse text).2.callDepth := by
  refine roomy rfl _ ?_
  rw [Store.document, get, found]
  rfl

theorem empty_unspoiled (limits : Document.Limits) (ids : Nat → String) (id : String) :
    (empty limits ids).Unspoiled id :=
  fun _ found => nomatch found

section

variable {s : Store} {id : String} (unspoiled : s.Unspoiled id)
include unspoiled

theorem Unspoiled.put {other : String} {entry : Entry}
    (fine : other = id → entry.resolver.Sound s.limits.room) : (s.put other entry).Unspoiled id := by
  intro found at_id
  rw [find?_put] at at_id
  split at at_id
  · rename_i same
    cases at_id
    exact fine same
  · exact unspoiled found at_id

theorem Unspoiled.perform (sound : s.Sound) {command : Command} (roomy : command.LeavesRoom s id) :
    (s.perform command).2.Unspoiled id := by
  cases command with
  | load text =>
    change (s.load text).2.Unspoiled id
    rcases s.load_cases text with ⟨_, refused⟩ | ⟨_, loaded, unlisted | ⟨_, entry, made⟩⟩
    · rw [load_error refused]
      exact unspoiled
    · rw [load_rejected loaded unlisted]
      exact unspoiled
    · rw [load_ok loaded made]
      exact unspoiled.put fun _ => (Entry.ofDocument_ok made).2.2
  | remove other =>
    change (s.remove other).2.Unspoiled id
    unfold Store.remove
    cases s.find? other with
    | none => exact unspoiled
    | some entry =>
      intro found at_id
      have kept := (lookup?_without other id s.entries).symm.trans at_id
      split at kept
      · exact nomatch kept
      · exact unspoiled found kept
  | schema other method path =>
    change (s.schema other method path).2.Unspoiled id
    unfold Store.schema get
    cases found : s.find? other with
    | none => exact unspoiled
    | some entry =>
      refine unspoiled.put fun same => ⟨?_, (unspoiled entry (same ▸ found)).named⟩
      exact Spec.Memo.remembered_sound (sound.entry found).bodies _
  | check other method path text =>
    change (s.check other method path text).2.Unspoiled id
    unfold Store.check get
    cases found : s.find? other with
    | none => exact unspoiled
    | some entry =>
      refine unspoiled.put fun same => ?_
      subst same
      have answers := Spec.Resolver.check_answers (roomy.spares found) method path
      exact (answers entry.resolver rfl (unspoiled entry found)).2.2
  | _ => exact unspoiled

theorem Unspoiled.after (sound : s.Sound) {commands : List Command}
    (roomy : s.LeavesRoom id commands) : (s.after commands).Unspoiled id := by
  induction commands generalizing s with
  | nil => exact unspoiled
  | cons command rest ih =>
    obtain ⟨first, others⟩ := roomy
    exact ih (unspoiled.perform sound first) (sound.perform command) others

theorem Unspoiled.check_eq (method path : String) {text : List Char}
    (roomy : (Command.check id method path text).LeavesRoom s id) :
    (s.check id method path text).1 = (s.document id).bind fun document =>
      (run text { document := document, method := method, path := path, room := s.limits.room }).mapError
        .rejected := by
  unfold Store.check document get
  cases found : s.find? id with
  | none => rfl
  | some entry =>
    have answers := Spec.Resolver.check_answers (roomy.spares found) method path
    have outcome := (answers entry.resolver rfl (unspoiled entry found)).1
    have fresh := (answers (.ofDocument entry.resolver.document) rfl
      (Spec.Resolver.ofDocument_sound _ _)).1
    exact congrArg (Except.mapError StoreError.rejected) (outcome.trans fresh.symm)

end

theorem Sound.schema_eq {s : Store} (sound : s.Sound) (id method path : String) :
    (s.schema id method path).1 = (s.document id).bind fun document =>
      (Spec.Resolver.resolve s.limits.room method path (.ofDocument document)).1.mapError .rejected := by
  unfold Store.schema document get
  cases found : s.find? id with
  | none => rfl
  | some entry =>
    have node := Spec.Memo.remembered_fst (sound.entry found).bodies (Spec.lowerCase method, path)
    have fresh := Spec.Memo.remembered_fst
      (Spec.Resolver.ofDocument_sound s.limits.room entry.resolver.document).bodies
      (Spec.lowerCase method, path)
    exact congrArg (Except.mapError StoreError.rejected) (node.trans fresh.symm)

end Store

/-- Nothing that has been asked before shows in an answer: neither what a resolver has been asked of its
document, nor what a store has been asked of this or any other document, nor what has been loaded into
it or removed from it. The outcome of a payload needs that every payload so far, and this one, has left
room to read what the tables of the document hold: what is given up is remembered as missing. -/
theorem history_independent (room : Nat) (asked : Value) (queries : List Spec.Resolver.Query)
    (limits : Document.Limits) (ids : Nat → String) (commands : List Store.Command)
    (id method path : String) :
    (Spec.Resolver.askAll room (.ofDocument asked) queries).1 =
        queries.map (fun q => (Spec.Resolver.ask room q (.ofDocument asked)).1) ∧
      let s := (Store.empty limits ids).after commands
      (s.schema id method path).1 = (s.document id).bind (fun document =>
        (Spec.Resolver.resolve limits.room method path (.ofDocument document)).1.mapError .rejected) ∧
      ∀ text, (Store.empty limits ids).LeavesRoom id (commands ++ [.check id method path text]) →
        (s.check id method path text).1 = (s.document id).bind fun document =>
          (run text { document := document, method := method, path := path, room := limits.room }).mapError
            .rejected := by
  constructor
  · have answers := Spec.Resolver.askAll_answers asked room queries rfl
      (Spec.Resolver.ofDocument_sound room asked)
    rw [answers.1]
    exact List.map_congr_left fun q _ => (Spec.Resolver.ask_ofDocument asked room q).symm
  · intro s
    have sound : s.Sound := (Store.empty_sound limits ids).after commands
    have frame : s.limits = limits := ((Store.empty limits ids).after_frame commands).1
    refine ⟨frame ▸ sound.schema_eq id method path, fun text roomy => ?_⟩
    obtain ⟨earlier, now⟩ := Store.leavesRoom_append.mp roomy
    have unspoiled := (Store.empty_unspoiled limits ids id).after (Store.empty_sound limits ids) earlier
    exact frame ▸ unspoiled.check_eq method path now.1

/-- A text between brackets, so many times. -/
def bracketed (opening closing inner : String) (count : Nat) : List Char :=
  (List.replicate count opening.toList).flatten ++ inner.toList ++
    (List.replicate count closing.toList).flatten

/-- A document with an operation whose schema refers to itself in an array, and to another schema that it
takes some calls to read. -/
def chainText : List Char :=
  ["\x7b\"paths\":\x7b\"/a\":\x7b\"post\":\x7b\"requestBody\":", "\x7b\"content\":\x7b\"application/json\":",
    "\x7b\"schema\":\x7b\"$ref\":\"#/definitions/Link\"", "\x7d\x7d\x7d\x7d\x7d\x7d\x7d,\"definitions\":\x7b",
    "\"Link\":\x7b\"type\":\"object\",\"properties\":", "\x7b\"kids\":\x7b\"type\":\"array\",",
    "\"items\":\x7b\"$ref\":\"#/definitions/Link\"\x7d\x7d,",
    "\"leaf\":\x7b\"$ref\":\"#/definitions/Leaf\"\x7d\x7d\x7d,",
    "\"Leaf\":\x7b\"type\":\"array\",\"items\":"].flatMap String.toList ++
  bracketed "\x7b\"items\":" "\x7d" "\x7b\x7d" 58 ++ "\x7d\x7d\x7d".toList

/-- A payload for it, with so many objects inside each other around a wrong leaf. -/
def kidsText (count : Nat) : List Char := bracketed "\x7b\"kids\":[" "]\x7d" "\x7b\"leaf\":1\x7d" count

/-- A payload that is not deep leaves the later ones as they would be in a store of their own. -/
theorem history_independent_chainText :
    let s := (Store.empty {} countedId).after
      [.load chainText, .check "00000001" "POST" "/a" (kidsText 4)]
    (s.document "00000001").toBool = true ∧
      (s.check "00000001" "POST" "/a" (kidsText 0)).1 = (s.document "00000001").bind fun document =>
        (run (kidsText 0) { document := document, method := "POST", path := "/a" }).mapError
          .rejected := by
  intro s
  have roomy : (Store.empty {} countedId).LeavesRoom "00000001"
      ([.load chainText, .check "00000001" "POST" "/a" (kidsText 4)] ++
        [.check "00000001" "POST" "/a" (kidsText 0)]) := by
    decide +kernel
  have stored : (s.document "00000001").toBool = true := by decide +kernel
  exact ⟨stored, (history_independent 0 .null [] _ _ _ _ _ _).2.2 _ roomy⟩

set_option maxRecDepth 4000 in
/-- A deep one makes the error of a later one vanish. -/
theorem history_shows_chainText :
    let s := (Store.empty {} countedId).after
      [.load chainText, .check "00000001" "POST" "/a" (kidsText 311)]
    (s.check "00000001" "POST" "/a" (kidsText 0)).1 ≠ (s.document "00000001").bind fun document =>
      (run (kidsText 0) { document := document, method := "POST", path := "/a" }).mapError
        .rejected := by
  intro s same
  have found : ((s.check "00000001" "POST" "/a" (kidsText 0)).1.toOption.map (·.schemaErrors.length),
      ((s.document "00000001").bind fun document =>
        (run (kidsText 0) { document := document, method := "POST", path := "/a" }).mapError
          .rejected).toOption.map (·.schemaErrors.length)) = (some 0, some 1) := by
    decide +kernel
  rw [← same] at found
  obtain ⟨before, after⟩ := Prod.mk.inj found
  exact nomatch before.symm.trans after

end PayloadCheck
