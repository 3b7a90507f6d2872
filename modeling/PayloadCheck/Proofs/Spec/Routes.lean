import PayloadCheck.Proofs.Schema.Following
import PayloadCheck.Proofs.Schema.Restated

namespace PayloadCheck

open Json Schema

namespace Schema

/-- The references that are followed one after the other on the way from a schema to another. -/
inductive Follows (lookup : String → Option Node) : Node → List String → Node → Prop
  | here (n : Node) : Follows lookup n [] n
  | further {n target last : Node} {ref : String} {refs : List String} :
      n.ref = some ref → lookup ref = some target → Follows lookup target refs last →
      Follows lookup n (ref :: refs) last

/-- No reference is followed again, however far a chain is followed. -/
def NeverRevisits (lookup : String → Option Node) (n : Node) : Prop :=
  ∀ refs last, Follows lookup n refs last → refs.Nodup

variable {lookup : String → Option Node}

theorem Follows.concat {n last target : Node} {refs : List String} {ref : String}
    (follows : Follows lookup n refs last) (named : last.ref = some ref) (found : lookup ref = some target) :
    Follows lookup n (refs ++ [ref]) target := by
  induction follows with
  | here => exact .further named found (.here target)
  | further own leads _ ih => exact .further own leads (ih named)

theorem Leads.follows {followed : List String} {n last : Node} (leads : Leads lookup followed n last) :
    ∃ refs, Follows lookup n refs last := by
  induction leads with
  | plain | again | dangling => exact ⟨[], .here _⟩
  | next named _ found _ ih =>
    obtain ⟨refs, rest⟩ := ih
    exact ⟨_, .further named found rest⟩

/-- One step along a chain that never revisits a reference leaves its end where it is. -/
theorem Leads.step {n target last : Node} {ref : String} (leads : Leads lookup [] n last)
    (once : NeverRevisits lookup n) (own : n.ref = some ref) (found : lookup ref = some target) :
    Leads lookup [] target last := by
  cases leads with
  | plain without => exact nomatch without.symm.trans own
  | again _ known => exact nomatch known
  | dangling named _ nothing =>
    cases named.symm.trans own
    exact nomatch nothing.symm.trans found
  | next named _ found' rest =>
    cases named.symm.trans own
    cases found'.symm.trans found
    refine rest.forget (List.nil_subset _) fun other among ends => ?_
    obtain rfl := List.mem_singleton.mp among
    obtain ⟨refs, follows⟩ := rest.follows
    have again := once _ _ ((Follows.further own found follows).concat ends found)
    simp at again

theorem violations_of_follow {references : Option (References Id)} {n n' : Node}
    (same : Id.run (follow references n) = Id.run (follow references n')) (room : Nat) (v : Value) :
    violations (steady references) room v n = violations (steady references) room v n' := by
  simp only [violations, lift_bind, same]

end Schema

namespace Spec

/-- The value in a document that describes the body of an operation, before any reference is followed. -/
def requestSchema? (document : Value) (method path : String) : Option Value :=
  (media? document (lowerCase method) path).bind mediaSchema?

theorem mediaSchema?_isObject {media raw : Value} (given : mediaSchema? media = some raw) :
    ∃ members, raw = .obj members := by
  unfold mediaSchema? at given
  split at given
  · exact ⟨_, (Option.some.inj given).symm⟩
  · split at given
    · exact ⟨_, (Option.some.inj given).symm⟩
    · exact ⟨_, (Option.some.inj given).symm⟩
    · exact nomatch given

section

variable {room : Nat} {document raw : Value} {method path : String} {node : Node}
  (resolved : resolve room document method path = some node)
  (given : requestSchema? document method path = some raw)
include resolved given

theorem resolve_stepRef :
    ∃ stepped, stepRef document raw = some stepped ∧ readSchema room stepped = some node := by
  have unfolded : (((media? document (lowerCase method) path).bind mediaSchema?).bind
      (stepRef document)).bind (readSchema room) = some node := resolved
  rw [show (media? document (lowerCase method) path).bind mediaSchema? = some raw from given,
    Option.bind_some] at unfolded
  exact Option.bind_eq_some_iff.mp unfolded

/-- What is resolved leads where the value in the document leads. -/
theorem follow_resolved (once : NeverRevisits (lookupRef room document) (Node.described raw)) :
    Id.run (follow (some (references room document)) node) =
      Id.run (follow (some (references room document)) (Node.described raw)) := by
  obtain ⟨stepped, step, read⟩ := resolve_stepRef resolved given
  have itself (same : some raw = some stepped) : node = Node.described raw := by
    cases same
    rw [Node.described, ofValue?_of_readSchema read, Option.getD_some]
  unfold stepRef at step
  split at step
  · rename_i ref named
    split at step
    · obtain ⟨media, _, beside⟩ := Option.bind_eq_some_iff.mp given
      obtain ⟨members, rfl⟩ := mediaSchema?_isObject beside
      have own : (Node.described (.obj members)).ref = some ref := by
        change (Node.ofMembers members).ref = some ref
        rw [ref_ofMembers, show lookup? "$ref" members = some (.str ref) from named]
        rfl
      have found : lookupRef room document ref = some node := by
        rw [lookupRef, step, Option.bind_some, read]
      have bounded := documentReferences_bounded room (some document)
      have leads : Leads (lookupRef room document) [] (Node.described (.obj members)) _ :=
        dereferenced_follow bounded _
      have leads' : Leads (lookupRef room document) [] node _ := dereferenced_follow bounded node
      exact leads'.unique (leads.step once own found)
    · rw [itself step]
  · rw [itself step]

end

end Spec

/-- A demand for the schema of an operation. -/
def byOperation (room : Nat) (document : Value) (method path : String) : Demand :=
  { document := document, method := method, path := path, room := room }

/-- A demand for a schema that is given outright, with references into a document. -/
def bySchema (room : Nat) (document schema : Value) : Demand :=
  { schema := schema, document := document, room := room }

theorem checkText_congr {text : List Char} {references : Nat → Option (References Id)} {room : Nat}
    {t : Target} (t' : Target) (same : ∀ v, t.check references room v = t'.check references room v) :
    checkText text (pure (some t)) references room = checkText text (pure (some t')) references room := by
  unfold checkText
  split
  · rfl
  · simp only [pure_bind, same]

section

variable {room : Nat} {document : Value} (legible : Spec.Legible document) {text : List Char}
  (spares : Spec.Spares document room (Json.parse text).2.callDepth)
include legible spares

/-- A text is checked as if nothing had been looked up and nothing of the room had been taken. -/
theorem run_of_target {d : Demand} {target : Option Target} (spec : d.document = some document)
    (same : d.room = room)
    (answers : Spec.Resolver.Answers document room d.target (.ok target)) :
    run text d =
      .ok (Id.run (checkText text (pure target) (steady (some (Spec.references room document))) room)) := by
  subst same
  have known : ∀ spec ∈ some document, Spec.Spares spec d.room (Json.parse text).2.callDepth := by
    rintro _ ⟨⟩
    exact spares
  have clear : ∀ spec ∈ some document, Spec.Legible spec := by
    rintro _ ⟨⟩
    exact legible
  have references : d.references = fun k => (some document).map (Spec.Resolver.references k) := by
    funext k
    rw [Demand.references, spec]
  have mirrors := Spec.Resolver.references_mirror known
  rw [← references] at mirrors
  obtain ⟨answer, -⟩ := Simulation.checkText_answers answers mirrors d.resolver
    (by rw [Demand.resolver, spec]; rfl) (Spec.Resolver.ofDocument_sound _ _)
  have faultless := Simulation.faultless_mirrors clear d.room (Json.parse text).2.callDepth
  exact answer.trans (Simulation.checkText_answers (Simulation.faultless.return_answers target) faultless)

theorem run_byOperation {method path : String} {node : Node} (named : method ≠ "" ∧ path ≠ "")
    (resolved : Spec.resolve room document method path = some node) :
    run text (byOperation room document method path) =
      .ok (Id.run (checkText text (pure (some (.node node))) (steady (some (Spec.references room document)))
        room)) := by
  refine run_of_target legible spares rfl rfl ?_
  have answers := Spec.Resolver.target_answers document room method path
  rw [legible.tryTarget_eq room named.1 named.2, resolved] at answers
  exact answers

theorem run_bySchema {members : List (String × Value)}
    (clear : Node.readError? room (.obj members) = none) :
    run text (bySchema room document (.obj members)) =
      .ok (Id.run (checkText text (pure (some (.raw (.obj members))))
        (steady (some (Spec.references room document))) room)) := by
  refine run_of_target legible spares rfl rfl ?_
  have target : (bySchema room document (.obj members)).target = pure (some (.raw (.obj members))) := by
    simp only [Demand.target, bySchema, Demand.outright, clear]
    rfl
  rw [target]
  exact (Spec.Resolver.simulation document room).return_answers _

end

/-- A text that is a null, which nothing is wrong with. -/
def nullText : List Char := "null".toList

theorem parse_nullText : Json.parse nullText = (.valid, .null) := by rfl

theorem checkText_nullText (references : Nat → Option (References Id)) (room : Nat) (target : Target) :
    Id.run (checkText nullText (pure (some target)) references room) =
      ⟨.valid, [], Id.run (target.check references room .null), true⟩ := by
  have visible : Text.allBlank nullText = false := by rfl
  simp only [checkText, parse_nullText, visible]
  rfl

theorem run_bySchema_error {text : List Char} {room : Nat} {document : Value} {members : List (String × Value)}
    {e : InputError} (parsed : (Json.parse text).1 = .valid) (visible : Text.allBlank text = false)
    (unread : Node.readError? room (.obj members) = some e) :
    run text (bySchema room document (.obj members)) = .error e := by
  rcases value : Json.parse text with ⟨d, v⟩
  obtain rfl : d = .valid := by rw [value] at parsed; exact parsed
  simp only [run, checkText, value, visible, Demand.target, bySchema, Demand.outright, unread]
  rfl

section

variable {room : Nat} {document : Value} {method path : String} {node : Node}
  (legible : Spec.Legible document) (named : method ≠ "" ∧ path ≠ "")
  (resolved : Spec.resolve room document method path = some node)
include legible named resolved

/-- An operation and an object that leads to the same schema have the same outcome for every text that
leaves room, exactly if the object can be read. -/
theorem run_byOperation_iff {members : List (String × Value)}
    (same : Id.run (follow (some (Spec.references room document)) node) =
      Id.run (follow (some (Spec.references room document)) (Node.described (.obj members)))) :
    (∀ text, Spec.Spares document room (Json.parse text).2.callDepth →
      run text (byOperation room document method path) = run text (bySchema room document (.obj members))) ↔
      Node.fault? (.obj members) room = none := by
  constructor
  · intro agree
    have spares : Spec.Spares document room (Json.parse nullText).2.callDepth := by
      rw [parse_nullText]
      exact Spec.spares_zero document room
    have asked := agree nullText spares
    rw [run_byOperation legible spares named resolved] at asked
    cases met : Node.fault? (.obj members) room with
    | none => rfl
    | some fault =>
      cases fault with
      | strayName =>
        have unread : Node.readError? room (.obj members) = some Node.strayName := by
          rw [Node.readError?, met]
        cases asked.trans (run_bySchema_error (congrArg Prod.fst parse_nullText) (by rfl) unread)
      | tooDeep =>
        -- Nothing is ever wrong with null, but what cannot be read is reported on it.
        have clear : Node.readError? room (.obj members) = none := by rw [Node.readError?, met]
        have unread : Node.read? room (.obj members) = none := if_pos (Node.fault?_blames met)
        rw [run_bySchema legible spares clear, checkText_nullText, checkText_nullText] at asked
        have errors := congrArg Outcome.schemaErrors (Except.ok.inj asked)
        have cut : Id.run (Target.check (steady (some (Spec.references room document))) room .null
            (.raw (.obj members))) = [tooDeep] := by
          rw [Target.check, checkRaw, unread]
          rfl
        cases errors.trans cut
  · intro fine text spares
    have readable := (Node.fault?_eq_none.mp fine).1
    have clear : Node.readError? room (.obj members) = none := by rw [Node.readError?, fine]
    rw [run_byOperation legible spares named resolved, run_bySchema legible spares clear]
    refine congrArg (Except.ok ∘ Id.run) (checkText_congr _ fun v => ?_)
    refine Eq.trans ?_ (checkRaw_of_readable (fun _ => Node.calls_obj_pos readable) readable _).symm
    exact congrArg (reports ∘ result?) (violations_of_follow same room v)

end

/-- Asking for an operation has the same outcome for every text that leaves room to read the entries of the
document as giving the value that describes its body in the document, exactly if that value can be read,
and as giving what is written back of the schema that was found, if it can be written, exactly if that can be
read again. No reference may be revisited. -/
theorem routes_agree_iff {room : Nat} {document raw : Value} {method path : String} {node : Node}
    (legible : Spec.Legible document) (named : method ≠ "" ∧ path ≠ "")
    (resolved : Spec.resolve room document method path = some node)
    (given : Spec.requestSchema? document method path = some raw)
    (once : NeverRevisits (Spec.lookupRef room document) (Node.described raw)) :
    ((∀ text, Spec.Spares document room (Json.parse text).2.callDepth →
      run text (byOperation room document method path) = run text (bySchema room document raw)) ↔
      Node.fault? raw room = none) ∧
    ∀ rendering, node.write? = some rendering →
      ((∀ text, Spec.Spares document room (Json.parse text).2.callDepth →
        run text (byOperation room document method path) = run text (bySchema room document rendering)) ↔
        Node.fault? rendering room = none) := by
  obtain ⟨media, _, inMedia⟩ := Option.bind_eq_some_iff.mp given
  obtain ⟨members, rfl⟩ := Spec.mediaSchema?_isObject inMedia
  refine ⟨run_byOperation_iff legible named resolved (Spec.follow_resolved resolved given once), ?_⟩
  intro rendering told
  obtain rfl := Node.write?_eq_some told
  obtain ⟨stepped, _, read⟩ := Spec.resolve_stepRef resolved given
  have back : Node.described node.toValue = node := by
    rw [Node.described, Node.ofValue?_toValue_of_read (Spec.ofValue?_of_readSchema read), Option.getD_some]
  rw [Node.toValue_eq] at back ⊢
  exact run_byOperation_iff legible named resolved (by rw [back])

/-- A chain that stops without having come back revisits nothing. -/
theorem Schema.Follows.neverRevisits {lookup : String → Option Node} {n last : Node} {refs : List String}
    (follows : Follows lookup n refs last) (stops : ∀ ref, last.ref = some ref → lookup ref = none)
    (once : refs.Nodup) : NeverRevisits lookup n := by
  suffices within : ∀ refs' last', Follows lookup n refs' last' → refs' <+: refs from
    fun refs' last' other => (within refs' last' other).sublist.nodup once
  clear once
  induction follows with
  | here =>
    intro refs' last' other
    cases other with
    | here => exact List.nil_prefix
    | further own found _ => exact nomatch (stops _ own).symm.trans found
  | further own found _ ih =>
    intro refs' last' other
    cases other with
    | here => exact List.nil_prefix
    | further own' found' rest =>
      cases own'.symm.trans own
      cases found'.symm.trans found
      exact List.cons_prefix_cons.mpr ⟨rfl, ih stops _ _ rest⟩

/-- A document in which a body is described by a value, with the schemas of pets and animals. -/
def petDocument (body : Value) : Value :=
  .obj [("paths", .obj [("/pets", .obj [("post", .obj [("requestBody", .obj [("content", .obj
      [("application/json", .obj [("schema", body)])])])])])]),
    ("definitions", .obj
      [("Pet", .obj [("$ref", .str "#/definitions/Animal"), ("type", .str "string")]),
        ("Animal", .obj [("required", .arr [.str "name"]), ("properties", .obj [("age", .null)])])])]

def petBody : Value := .obj [("$ref", .str "#/definitions/Pet")]

def petSchema : Node := Node.ofMembers [("$ref", .str "#/definitions/Animal"), ("type", .str "string")]

theorem petDocument_neverRevisits (body : Value) {members : List (String × Value)}
    (refers : (Node.ofMembers members).ref = some "#/definitions/Pet") :
    NeverRevisits (Spec.lookupRef standardRoom (petDocument body)) (Node.ofMembers members) := by
  have follows : Follows (Spec.lookupRef standardRoom (petDocument body)) (Node.ofMembers members)
      ["#/definitions/Pet", "#/definitions/Animal"] (Node.ofMembers
        [("required", .arr [.str "name"]), ("properties", .obj [("age", .null)])]) :=
    .further refers rfl (.further rfl rfl (.here _))
  exact follows.neverRevisits nofun (by decide)

theorem routes_agree_iff_pets :
    Spec.Legible (petDocument petBody) ∧ ("POST" ≠ "" ∧ "/pets" ≠ "") ∧
      Spec.resolve standardRoom (petDocument petBody) "POST" "/pets" = some petSchema ∧
      Spec.requestSchema? (petDocument petBody) "POST" "/pets" = some petBody ∧
      NeverRevisits (Spec.lookupRef standardRoom (petDocument petBody)) (Node.described petBody) ∧
      (∀ text, Spec.Spares (petDocument petBody) standardRoom (Json.parse text).2.callDepth →
        run text (byOperation standardRoom (petDocument petBody) "POST" "/pets") =
          run text (bySchema standardRoom (petDocument petBody) petBody)) ∧
      petSchema.write? = some petSchema.toValue ∧
      ∀ text, Spec.Spares (petDocument petBody) standardRoom (Json.parse text).2.callDepth →
        run text (byOperation standardRoom (petDocument petBody) "POST" "/pets") =
          run text (bySchema standardRoom (petDocument petBody) petSchema.toValue) := by
  have legible : Spec.Legible (petDocument petBody) := Spec.legible_of_whole (by decide)
  have named : "POST" ≠ "" ∧ "/pets" ≠ "" := by decide
  have resolved : Spec.resolve standardRoom (petDocument petBody) "POST" "/pets" = some petSchema := by
    rfl
  have given : Spec.requestSchema? (petDocument petBody) "POST" "/pets" = some petBody := by rfl
  have once : NeverRevisits (Spec.lookupRef standardRoom (petDocument petBody)) (Node.described petBody) :=
    petDocument_neverRevisits petBody rfl
  have told : petSchema.write? = some petSchema.toValue := if_neg (by decide)
  obtain ⟨asGiven, asWritten⟩ := routes_agree_iff legible named resolved given once
  exact ⟨legible, named, resolved, given, once, asGiven.mpr (by decide), told,
    (asWritten _ told).mpr (by decide)⟩

/-- A reference to a pet, with the schema of elements beside it. -/
def petBeside (items : Value) : Value := .obj [("$ref", .str "#/definitions/Pet"), ("items", items)]

theorem resolve_petBeside (items : Value) :
    Spec.resolve standardRoom (petDocument (petBeside items)) "POST" "/pets" = some petSchema := by rfl

theorem isWhole_petDocument {body : Value} (whole : body.isWhole = true) :
    (petDocument body).isWhole = true := by
  have others : (petDocument .null).isWhole = true := by decide
  simp only [petDocument, Value.isWhole, Value.haveWhole, whole] at others ⊢
  exact others

theorem isWhole_petBeside {items : Value} (whole : items.isWhole = true) :
    (petBeside items).isWhole = true := by
  have others : (petBeside .null).isWhole = true := by decide
  simp only [petBeside, Value.isWhole, Value.haveWhole, whole] at others ⊢
  exact others

theorem isWhole_nestedItems (n : Nat) : (Node.nestedItems n).isWhole = true := by
  induction n with
  | zero => rfl
  | succ n ih =>
    have named : Text.isWhole "items" = true := by decide
    exact Value.haveWhole_iff.mpr (List.forall_mem_singleton.mpr ⟨named, ih⟩)

theorem run_petBeside {items : Value} (whole : items.isWhole = true)
    (deep : standardRoom < Node.calls items) :
    run nullText (byOperation standardRoom (petDocument (petBeside items)) "POST" "/pets") =
        .ok ⟨.valid, [], [], true⟩ ∧
      run nullText (bySchema standardRoom (petDocument (petBeside items)) (petBeside items)) =
        .ok ⟨.valid, [], [tooDeep], true⟩ := by
  have beside := isWhole_petBeside whole
  have legible := Spec.legible_of_whole (isWhole_petDocument beside)
  have spares : Spec.Spares (petDocument (petBeside items)) standardRoom (Json.parse nullText).2.callDepth := by
    rw [parse_nullText]
    exact Spec.spares_zero _ _
  have beyond : standardRoom < Node.calls (petBeside items) := by
    simp only [petBeside, Node.calls, Node.callsOfMembers, if_true]
    omega
  have unread : Node.read? standardRoom (petBeside items) = none := if_pos beyond
  have named := Node.hasStrayName_of_whole _ beside
  constructor
  · rw [run_byOperation legible spares (by decide) (resolve_petBeside items), checkText_nullText]
    rfl
  · have given : run nullText (bySchema standardRoom (petDocument (petBeside items)) (petBeside items)) = _ :=
      run_bySchema legible spares (Node.readError?_eq_none named standardRoom)
    rw [given, checkText_nullText, Target.check, ← petBeside, checkRaw, unread]
    rfl

/-- What stands beside a reference is passed by on the way to the schema of an operation, but is read where
the value is given. -/
theorem routes_disagree :
    Spec.Legible (petDocument (petBeside (Node.nestedItems 1600))) ∧
      Spec.resolve standardRoom (petDocument (petBeside (Node.nestedItems 1600))) "POST" "/pets" =
        some petSchema ∧
      Spec.requestSchema? (petDocument (petBeside (Node.nestedItems 1600))) "POST" "/pets" =
        some (petBeside (Node.nestedItems 1600)) ∧
      NeverRevisits (Spec.lookupRef standardRoom (petDocument (petBeside (Node.nestedItems 1600))))
        (Node.described (petBeside (Node.nestedItems 1600))) ∧
      run nullText (byOperation standardRoom (petDocument (petBeside (Node.nestedItems 1600))) "POST" "/pets") =
        .ok ⟨.valid, [], [], true⟩ ∧
      run nullText (bySchema standardRoom (petDocument (petBeside (Node.nestedItems 1600)))
        (petBeside (Node.nestedItems 1600))) = .ok ⟨.valid, [], [tooDeep], true⟩ := by
  have deep : standardRoom < Node.calls (Node.nestedItems 1600) := by
    rw [Node.calls_nestedItems]
    decide
  have whole := isWhole_nestedItems 1600
  generalize Node.nestedItems 1600 = items at deep whole
  have legible := Spec.legible_of_whole (isWhole_petDocument (isWhole_petBeside whole))
  exact ⟨legible, resolve_petBeside items, by rfl, petDocument_neverRevisits _ rfl,
    run_petBeside whole deep⟩

end PayloadCheck
