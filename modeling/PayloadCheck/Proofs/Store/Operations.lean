import PayloadCheck.Proofs.Coherence
import PayloadCheck.Proofs.Spec.Listing
import PayloadCheck.Proofs.Store.Replies

namespace PayloadCheck

open Json Schema

namespace Spec

/-- A body is found only for an operation that is declared. -/
theorem exists_declaration {document raw : Value} {method path : String} (known : method ∈ methods)
    (found : rawBody? document method path = some raw) :
    ∃ d ∈ declarations document, d.method = method ∧ d.path = path := by
  unfold rawBody? media? at found
  obtain ⟨_, found, _⟩ := Option.bind_eq_some_iff.mp found
  obtain ⟨_, found, _⟩ := Option.bind_eq_some_iff.mp found
  obtain ⟨content, found, _⟩ := Option.bind_eq_some_iff.mp found
  simp only [Value.dig?, Option.bind_eq_some_iff] at found
  obtain ⟨table, at_paths, item, at_path, operation, at_method, body, at_body, _⟩ := found
  have there : lookup? path (paths document) = some item := by
    rw [paths, at_paths]
    cases table with
    | obj members => exact at_path
    | _ => cases at_path
  cases operation with
  | obj description =>
    refine ⟨⟨method, path, description⟩, mem_declarations.mpr ?_, rfl, rfl⟩
    exact ⟨known, item, mem_of_lookup? there, at_method⟩
  | _ => cases at_body

theorem Listable.readFound {room : Nat} {document : Value} (listable : Listable room document)
    {method : String} (known : lowerCase method ∈ methods) (path : String) :
    Spec.readFound room (rawBody? document (lowerCase method) path) =
      .ok (resolve room document method path) := by
  cases read : Spec.readFound room (rawBody? document (lowerCase method) path) with
  | ok node => exact congrArg Except.ok (readFound_ok read)
  | error e =>
    obtain ⟨_, raw, found, stray⟩ := readFound_error_iff.mp read
    obtain ⟨d, declared, same, rfl⟩ := exists_declaration known found
    have small : lowerCase d.method = lowerCase method := by rw [same, lowerCase_of_mem _ known]
    exact absurd stray (listable d declared raw (small ▸ found))

end Spec

namespace Store

/-- Every document of a store has a property. -/
def Every (p : Value → Prop) (s : Store) : Prop := ∀ held ∈ s.contents, p held.2

/-- A command brings in no document without a property. -/
def Command.Brings (limits : Document.Limits) (p : Value → Prop) : Command → Prop
  | .load text => ∀ document, Document.load limits text = .ok document → p document
  | _ => True

section

variable {p : Value → Prop}

theorem Every.alike {s t : Store} (every : s.Every p) (alike : Alike t s) : t.Every p := by
  intro held among
  rw [alike.contents] at among
  exact every held among

theorem Every.perform {s : Store} (sound : s.Sound) (every : s.Every p) {command : Command}
    (brings : command.Brings s.limits p) : (s.perform command).2.Every p := by
  cases command with
  | load text =>
    change (s.load text).2.Every p
    rcases s.load_cases text with ⟨_, refused⟩ | ⟨document, loaded, unlisted | ⟨_, entry, made⟩⟩
    · rw [load_error refused]
      exact every
    · rw [load_rejected loaded unlisted]
      exact every
    · intro held among
      rw [(load_stored loaded made).2.1] at among
      rcases mem_of_mem_assign among with rfl | old
      · exact brings document loaded
      · exact every held old
  | remove id =>
    change (s.remove id).2.Every p
    intro held among
    rw [contents_remove] at among
    exact every held (List.mem_of_mem_filter among)
  | schema id method path => exact every.alike (s.schema_alike id method path)
  | check id method path text => exact every.alike (sound.check_alike id method path text)
  | _ => exact every

/-- A run that brings in no document without a property leaves none behind. -/
theorem Every.after {s : Store} (sound : s.Sound) (every : s.Every p) {commands : List Command}
    (brings : ∀ command ∈ commands, command.Brings s.limits p) : (s.after commands).Every p := by
  induction commands generalizing s with
  | nil => exact every
  | cons command rest ih =>
    obtain ⟨first, others⟩ := List.forall_mem_cons.mp brings
    have limits : (s.perform command).2.limits = s.limits := (s.perform_frame command).1
    refine ih (sound.perform command) (every.perform sound first) ?_
    rwa [limits]

/-- What holds of every document that is brought in holds of all that a store has. -/
theorem every_of_brings {limits : Document.Limits} {ids : Nat → String} {commands : List Command}
    (brings : ∀ command ∈ commands, command.Brings limits p) :
    ((empty limits ids).after commands).Every p :=
  Every.after (empty_sound limits ids) (List.forall_mem_nil _) brings

theorem Every.document {s : Store} (every : s.Every p) {id : String} {document : Value}
    (holds : s.document id = .ok document) : p document :=
  every _ (mem_of_lookup? (document_eq_ok.mp holds))

end

theorem exists_entry {s : Store} {id : String} {document : Value} (holds : s.document id = .ok document) :
    ∃ entry, s.find? id = some entry ∧ entry.resolver.document = document := by
  unfold Store.document get at holds
  cases found : s.find? id with
  | none =>
    rw [found] at holds
    exact nomatch holds
  | some entry =>
    rw [found] at holds
    exact ⟨entry, rfl, Except.ok.inj holds⟩

theorem check_of_find? {s : Store} {id : String} {entry : Entry} (found : s.find? id = some entry)
    (method path : String) (text : List Char) :
    (s.check id method path text).1 =
      (Spec.Resolver.check s.limits.room method path text entry.resolver).1.mapError .rejected := by
  unfold Store.check get
  rw [found]
  rfl

/-- The operations of a document that is stored can be listed. -/
theorem Sound.listable {s : Store} (sound : s.Sound) {id : String} {document : Value}
    (holds : s.document id = .ok document) : Spec.Listable s.limits.room document := by
  obtain ⟨entry, found, rfl⟩ := exists_entry holds
  rcases Spec.listed_cases s.limits.room entry.resolver.document with ⟨listable, _⟩ | ⟨_, failed⟩
  · exact listable
  · exact nomatch (sound.entry found).listed.symm.trans failed

/-- The schema of an operation with a known method is found without an error. -/
theorem Sound.schema_resolve {s : Store} (sound : s.Sound) {id method : String} {document : Value}
    (holds : s.document id = .ok document) (known : Spec.lowerCase method ∈ Spec.methods) (path : String) :
    Spec.readFound s.limits.room (Spec.rawBody? document (Spec.lowerCase method) path) =
        .ok (Spec.resolve s.limits.room document method path) ∧
      (s.schema id method path).1 = .ok (Spec.resolve s.limits.room document method path) := by
  have read := (sound.listable holds).readFound known path
  refine ⟨read, ?_⟩
  have resolved := (Spec.Resolver.resolve_answers document s.limits.room method path _ rfl
    (Spec.Resolver.ofDocument_sound s.limits.room document)).1
  rw [sound.schema_eq, holds]
  exact congrArg (Except.mapError StoreError.rejected) (resolved.trans read)

end Store

/-- A visible text of JSON is checked exactly if a schema is found for it. -/
theorem Spec.Resolver.check_schemaChecked {room : Nat} {document : Value} {method path : String}
    {text : List Char} {found : Option Node} (method_named : method ≠ "") (path_named : path ≠ "")
    (valid : (diagnose text).isValid = true) (visible : Text.allBlank text = false)
    (read : Spec.readFound room (Spec.rawBody? document (Spec.lowerCase method) path) = .ok found)
    {r : Spec.Resolver} (same : r.document = document) (bodies : r.BodiesSound room) {o : Outcome}
    (checked : (check room method path text r).1 = .ok o) :
    o.schemaChecked = true ↔ found ≠ none := by
  have diagnosed : Json.parse text = (.valid, (Json.parse text).2) :=
    Prod.ext (Diagnosis.eq_valid valid) rfl
  rw [check, checkText_of_visible diagnosed visible] at checked
  obtain ⟨target, resolved, result⟩ := Outcome.byTarget_ok checked
  subst same
  have node := Spec.Memo.remembered_fst bodies (Spec.lowerCase method, path)
  have targeted : (Spec.Resolver.target room method path r).1 = .ok (found.map .node) := by
    simp only [Spec.Resolver.target, method_named, path_named, decide_false, Bool.or_self,
      Bool.false_eq_true, if_false]
    exact Spec.Lookups.bind_ok.mpr ⟨found, node.trans read, rfl⟩
  obtain rfl := Except.ok.inj (targeted.symm.trans resolved)
  rcases result with ⟨absent, rfl⟩ | ⟨present, errors, rfl⟩
  · simpa using absent
  · simpa using present

/-- The list of operations, the schemas and the checks of payloads agree on what a document declares: an
operation is listed exactly if the path item holds a mapping under its method, and then once; it is told
to have a schema exactly if one is found, in whatever case the method is given; and where a visible text of
JSON gets an outcome, it is checked against a schema exactly if one is found. It gets one unless the document
has a schema with a name that is no text. -/
theorem operation_views_agree {limits : Document.Limits} {ids : Nat → String}
    {commands : List Store.Command} {id method path : String} {document : Value}
    (holds : ((Store.empty limits ids).after commands).document id = .ok document)
    (named : path ≠ "") (known : Spec.lowerCase method ∈ Spec.methods) :
    let s := (Store.empty limits ids).after commands
    ∃ listed found, s.operations id = .ok listed ∧ (s.schema id method path).1 = .ok found ∧
      ((∃ op ∈ listed, op.IsFor method path) ↔
        Spec.Declares document (Spec.lowerCase method) path) ∧
      (∀ op ∈ listed, op.IsFor method path →
        listed.filter (Spec.Operation.IsFor method path) = [op] ∧
        (op.hasSchema = true ↔ found ≠ none)) ∧
      (∀ spelling, Spec.lowerCase spelling = Spec.lowerCase method →
        (s.schema id spelling path).1 = .ok found) ∧
      ∀ text, (diagnose text).isValid = true → Text.allBlank text = false →
        (∀ outcome, (s.check id method path text).1 = .ok outcome →
          (outcome.schemaChecked = true ↔ found ≠ none)) ∧
        (Spec.Legible document → ∃ outcome, (s.check id method path text).1 = .ok outcome) := by
  intro s
  have sound : s.Sound := (Store.empty_sound limits ids).after commands
  have each : s.Every Value.NamesOnce := by
    refine Store.every_of_brings fun command _ => ?_
    cases command with
    | load text => exact fun _ result => Document.load_namesOnce result
    | _ => trivial
  have once : document.NamesOnce := each.document holds
  obtain ⟨read, schema⟩ := sound.schema_resolve holds known path
  obtain ⟨declared, only⟩ := Spec.operations_isFor once s.limits.room path known
  refine ⟨Spec.operations s.limits.room document, Spec.resolve s.limits.room document method path,
    by rw [sound.operations_eq, holds]; rfl, schema, declared, fun op among isFor => ?_,
    fun spelling same => ?_, fun text valid visible => ?_⟩
  · obtain ⟨alone, told⟩ := only op among isFor
    refine ⟨alone, ?_⟩
    rw [told, Option.isSome_iff_ne_none]
  · rw [(sound.schema_resolve holds (same ▸ known) path).2, Spec.resolve, Spec.resolve, same]
  · have method_named := Spec.ne_empty_of_known known
    obtain ⟨entry, found, same⟩ := Store.exists_entry holds
    rw [Store.check_of_find? found]
    refine ⟨fun outcome checked => ?_, fun legible => ?_⟩
    · cases result : (Spec.Resolver.check s.limits.room method path text entry.resolver).1 with
      | error e =>
        rw [result] at checked
        cases checked
      | ok o =>
        rw [result] at checked
        cases checked
        exact Spec.Resolver.check_schemaChecked method_named named valid visible read same
          (sound.entry found).bodies result
    · obtain ⟨o, given, _⟩ :=
        Spec.Resolver.check_succeeds legible s.limits.room method path text _ same
      exact ⟨o, by rw [given]; rfl⟩

/-- A document with an operation that takes a body. -/
def orderText : List Char :=
  ("\x7b\"paths\":\x7b\"/orders\":\x7b\"post\":\x7b\"requestBody\":" ++
    "\x7b\"content\":\x7b\"*/*\":\x7b\"schema\":\x7b\x7d\x7d\x7d\x7d\x7d\x7d\x7d\x7d").toList

theorem operation_views_orderText :
    let s := (Store.empty {} countedId).after [.load orderText]
    ∃ listed found, s.operations "00000001" = .ok listed ∧
      (s.schema "00000001" "Post" "/orders").1 = .ok found ∧
      ∃ op ∈ listed, op.IsFor "Post" "/orders" := by
  intro s
  have declared : ((s.document "00000001").toOption.bind
      (·.dig? ["paths", "/orders", "post"])).any (·.isObject) = true := by decide +kernel
  cases holds : s.document "00000001" with
  | error e =>
    rw [holds] at declared
    exact nomatch declared
  | ok document =>
    obtain ⟨listed, found, operations, schema, iff, _⟩ :=
      @operation_views_agree {} countedId _ _ "Post" "/orders" _ holds (by decide) (by decide +kernel)
    refine ⟨listed, found, operations, schema, iff.mpr ?_⟩
    rw [holds] at declared
    obtain ⟨item, atItem, object⟩ := (Option.any_eq_true _ _).mp declared
    have small : Spec.lowerCase "Post" = "post" := by decide +kernel
    cases item with
    | obj description => exact ⟨description, small ▸ atItem⟩
    | _ => exact nomatch object

/-- A document with an operation whose schema refers to one that has a name which is no text. -/
def strayPetText : List Char :=
  ["\x7b\"paths\":\x7b\"/pets\":\x7b\"post\":\x7b\"requestBody\":",
    "\x7b\"content\":\x7b\"*/*\":\x7b\"schema\":",
    "\x7b\"properties\":\x7b\"pet\":",
    "\x7b\"$ref\":\"#/definitions/Pet\"\x7d\x7d\x7d\x7d\x7d\x7d\x7d\x7d\x7d,",
    "\"definitions\":\x7b\"Pet\":\x7b\"\\ud800\":1\x7d\x7d\x7d"].flatMap String.toList

/-- The schema of the operation is found, and a payload for it gets no outcome. -/
theorem strayPet_unchecked :
    let s := (Store.empty {} countedId).after [.load strayPetText]
    let payload := "\x7b\"pet\":1\x7d".toList
    (diagnose payload).isValid = true ∧ Text.allBlank payload = false ∧
      (s.schema "00000001" "post" "/pets").1.toOption.any (·.isSome) = true ∧
      (s.check "00000001" "post" "/pets" payload).1.toOption.isNone = true := by
  intro s payload
  refine ⟨by decide +kernel, by decide +kernel, ?_, ?_⟩ <;> decide +kernel

end PayloadCheck
