import PayloadCheck.Http.Service
import PayloadCheck.Proofs.Number.Numeral

namespace PayloadCheck.Http

open Schema

/-- What comes of an operation of a store is its answer, that there is no such document, or why there is
none. -/
theorem reply_ok {α : Type} {answer : α → Reply} {result : Except StoreError α} {a : Answer}
    (given : reply answer result = .ok a) :
    (∃ value, result = .ok value ∧ answer value = .ok a) ∨
      (∃ id, result = .error (.unknownId id) ∧ a = .unknownDocument id) ∨
        ∃ messages, result = .error (.unloadable messages) ∧ a = .unloadable messages := by
  unfold reply at given
  split at given
  · exact Or.inl ⟨_, rfl, given⟩
  · cases given
    exact Or.inr (Or.inl ⟨_, rfl, rfl⟩)
  · cases given
    exact Or.inr (Or.inr ⟨_, rfl, rfl⟩)
  · exact nomatch given
  · exact nomatch given

/-- A reply, if it is an answer, does not say that a request is too large. -/
def Reply.Admits (given : Reply) : Prop :=
  ∀ a, given = .ok a → a.status ≠ 413

theorem Reply.Admits.of_ok {a : Answer} (other : decide (a.status = 413) = false) :
    Reply.Admits (.ok a) := by
  rintro _ ⟨⟩
  exact of_decide_eq_false other

theorem Reply.Admits.of_error (f : Failure) : Reply.Admits (.error f) := by
  rintro _ ⟨⟩

theorem reject_admits (errors : List FieldError) : (reject errors).Admits := by
  unfold reject
  split
  · exact .of_error _
  · split
    · exact .of_error _
    · exact .of_ok rfl

theorem reply_admits {α : Type} {answer : α → Reply} {result : Except StoreError α}
    (each : ∀ value, (answer value).Admits) : (reply answer result).Admits := by
  intro a given
  rcases reply_ok given with ⟨value, -, told⟩ | ⟨id, -, rfl⟩ | ⟨messages, -, rfl⟩
  · exact each value a told
  · exact of_decide_eq_false rfl
  · exact of_decide_eq_false rfl

theorem schemaReply_admits (id method path : String) (node : Option Node) :
    (schemaReply id method path node).Admits := by
  unfold schemaReply
  split
  · exact .of_ok rfl
  · split
    · exact .of_error _
    · split
      · exact .of_error _
      · exact .of_ok rfl

theorem StoreAction.run_admits (s : Store) (query : List Char) (content : Content) (a : StoreAction) :
    (a.run s query content).1.Admits := by
  cases a with
  | load =>
    simp only [run]
    split
    · exact reject_admits _
    · exact reply_admits fun _ => .of_ok rfl
  | list => exact reply_admits fun _ => .of_ok rfl
  | remove id => exact reply_admits fun _ => .of_ok rfl
  | operations id => exact reply_admits fun _ => .of_ok rfl
  | requestSchema id =>
    simp only [run]
    split
    · exact reply_admits fun _ => schemaReply_admits _ _ _ _
    · exact .of_ok rfl
  | check id =>
    simp only [run]
    split
    · exact reject_admits _
    · exact reply_admits fun _ => .of_ok rfl

theorem Action.run_admits (store : Option Store) (query : List Char) (content : Content) (a : Action) :
    (a.run store query content).1.Admits := by
  cases a with
  | health => exact .of_ok rfl
  | validate =>
    simp only [run, validateReply]
    split
    · exact reject_admits _
    · split
      · exact .of_ok rfl
      · exact .of_error _
  | checkSyntax =>
    simp only [run, syntaxReply]
    split
    · exact reject_admits _
    · exact .of_ok rfl
  | onStore a =>
    cases store with
    | none => exact .of_error _
    | some s => exact a.run_admits s query content

theorem contentError_admits (fault : ContentFault) : Reply.Admits (.ok (contentError fault)) := by
  cases fault <;> exact .of_ok rfl

theorem Service.dispatch_admits (store : Option Store) (r : Request) :
    (dispatch store r).1.Admits := by
  unfold dispatch
  split
  · exact .of_ok rfl
  · exact .of_ok rfl
  · exact .of_ok rfl
  · split
    · split
      · exact contentError_admits _
      · exact Action.run_admits _ _ _ _
    · exact Action.run_admits _ _ _ _

theorem send_ok {a b : Answer} (sent : Service.send a = .ok b) : b = a := by
  unfold Service.send at sent
  split at sent
  · exact (Except.ok.inj sent).symm
  · exact nomatch sent

/-- What is sent is the answer of a reply. -/
theorem Reply.Admits.sent {given : Reply} (admits : given.Admits) :
    Reply.Admits (given.bind Service.send) := by
  intro b sent
  cases given with
  | error failure => exact nomatch sent
  | ok a =>
    obtain rfl := send_ok sent
    exact admits b rfl

/-- A request goes beyond a limit: the length that it states does, if it states an integer, or the octets
that it brings do. -/
def Request.Exceeds (limit : Int) (r : Request) : Prop :=
  (∃ text n, r.header? "content-length" = some text ∧ Number.IntegerText text n ∧ limit < n) ∨
    limit < r.pieces.flatten.length

theorem Request.statedLength?_eq_some {r : Request} {n : Int} :
    r.statedLength? = some n ↔
      ∃ text, r.header? "content-length" = some text ∧ Number.IntegerText text n := by
  have taken (text : List Char) :
      (Number.numeral text).toOption = some n ↔ Number.IntegerText text n := by
    rw [← Number.numeral_eq_ok]
    cases Number.numeral text <;> simp [Except.toOption]
  simp [statedLength?, Option.bind_eq_some_iff, taken]

theorem Request.isTooLarge_iff {limit : Int} {r : Request} (brings : r.bringsBody = true) :
    r.isTooLarge limit = true ↔ r.Exceeds limit := by
  have stated : r.statedLength?.any (limit < ·) = true ↔
      ∃ text n, r.header? "content-length" = some text ∧ Number.IntegerText text n ∧ limit < n := by
    rw [Option.any_eq_true]
    simp only [decide_eq_true_eq, statedLength?_eq_some]
    constructor
    · rintro ⟨n, ⟨text, given, written⟩, beyond⟩
      exact ⟨text, n, given, written, beyond⟩
    · rintro ⟨text, n, given, written, beyond⟩
      exact ⟨n, ⟨text, given, written⟩, beyond⟩
  rw [isTooLarge, brings, Bool.true_and, goBeyond_eq, Bool.or_eq_true, stated]
  simp [Exceeds]

theorem Service.handle_of_exceeds {service : Service} {r : Request} (brings : r.bringsBody = true)
    (beyond : r.Exceeds service.bodyLimit) :
    service.handle r = (.ok (.tooLarge service.bodyLimit), service) := by
  rw [handle, if_pos (Request.isTooLarge_iff brings |>.mpr beyond)]

theorem Service.handle_of_fits {service : Service} {r : Request} (brings : r.bringsBody = true)
    (fits : ¬ r.Exceeds service.bodyLimit) :
    service.handle r =
      ((dispatch service.store r).1.bind send,
        { service with store := (dispatch service.store r).2 }) := by
  rw [handle, if_neg fun large => fits ((Request.isTooLarge_iff brings).mp large)]

/-- A request with the same body in other pieces. -/
def Request.inPieces (r : Request) (pieces : List (List Nat)) : Request := { r with pieces := pieces }

/-- A handler reads the body as a whole. -/
theorem Service.dispatch_inPieces {store : Option Store} {r : Request} {pieces : List (List Nat)}
    (whole : pieces.flatten = r.pieces.flatten) :
    dispatch store (r.inPieces pieces) = dispatch store r := by
  have body : (r.inPieces pieces).body = r.body := whole
  have content : (r.inPieces pieces).content = r.content := by
    rw [Request.content, Request.content, body]
    rfl
  rw [dispatch, dispatch, content]
  rfl

theorem Request.exceeds_inPieces {limit : Int} {r : Request} {pieces : List (List Nat)}
    (whole : pieces.flatten = r.pieces.flatten) :
    (r.inPieces pieces).Exceeds limit ↔ r.Exceeds limit := by
  have length : (r.inPieces pieces).pieces.flatten = r.pieces.flatten := whole
  rw [Exceeds, Exceeds, length]
  rfl

/-- A request that brings a body is answered that it is too large exactly if the length that it states
or the number of its octets is beyond the limit. It is then not handled, and the service stays as it is.
Any other one is handled by its whole body, which is its pieces one after the other, so that they make
no difference to what it is answered and to what it leaves behind. -/
theorem body_limit_exact (service : Service) {r : Request} (brings : r.bringsBody = true) :
    ((∃ a, (service.handle r).1 = .ok a ∧ a.status = 413) ↔ r.Exceeds service.bodyLimit) ∧
    (r.Exceeds service.bodyLimit →
      service.handle r = (.ok (.tooLarge service.bodyLimit), service)) ∧
    (¬ r.Exceeds service.bodyLimit →
      r.body = r.pieces.flatten ∧
      service.handle r =
        let (result, store) := Service.dispatch service.store (r.inPieces [r.pieces.flatten])
        (result.bind Service.send, { service with store := store })) ∧
    ∀ pieces, pieces.flatten = r.pieces.flatten →
      (r.inPieces pieces).body = r.body ∧ service.handle (r.inPieces pieces) = service.handle r := by
  have single : [r.pieces.flatten].flatten = r.pieces.flatten := List.flatten_singleton
  refine ⟨⟨?_, ?_⟩, Service.handle_of_exceeds brings, ?_, ?_⟩
  · rintro ⟨a, given, refused⟩
    by_contra fits
    rw [Service.handle_of_fits brings fits] at given
    exact (Service.dispatch_admits service.store r).sent a given refused
  · intro beyond
    exact ⟨_, congrArg Prod.fst (Service.handle_of_exceeds brings beyond), rfl⟩
  · intro fits
    refine ⟨rfl, ?_⟩
    rw [Service.handle_of_fits brings fits, Service.dispatch_inPieces single]
  · intro pieces whole
    refine ⟨whole, ?_⟩
    have brings' : (r.inPieces pieces).bringsBody = true := brings
    have same : (r.inPieces pieces).Exceeds service.bodyLimit ↔ r.Exceeds service.bodyLimit :=
      Request.exceeds_inPieces whole
    by_cases beyond : r.Exceeds service.bodyLimit
    · rw [Service.handle_of_exceeds brings beyond, Service.handle_of_exceeds brings' (same.mpr beyond)]
    · rw [Service.handle_of_fits brings beyond, Service.handle_of_fits brings' (mt same.mp beyond),
        Service.dispatch_inPieces whole]

/-- A request that states a length with a sign and an underscore, and brings less. -/
def overstatedPost : Request where
  method := "POST"
  path := "/validate".toList
  query := []
  headers := [("Content-Length", " +1_0 ".toList)]
  pieces := [[123], [], [125]]

theorem body_limit_overstatedPost :
    overstatedPost.bringsBody = true ∧
      ((⟨9, none⟩ : Service).handle overstatedPost).1.toOption.map Answer.status = some 413 := by
  have brings : overstatedPost.bringsBody = true := by decide
  refine ⟨brings, ?_⟩
  have stated : Number.IntegerText " +1_0 ".toList 10 := Number.numeral_eq_ok.mp (by decide +kernel)
  have beyond : overstatedPost.Exceeds 9 := Or.inl ⟨_, 10, by decide +kernel, stated, by decide⟩
  rw [(body_limit_exact ⟨9, none⟩ brings).2.1 beyond]
  rfl

end PayloadCheck.Http
