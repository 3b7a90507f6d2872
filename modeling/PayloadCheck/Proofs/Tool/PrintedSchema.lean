import Mathlib
import PayloadCheck.Proofs.Document.Extent
import PayloadCheck.Proofs.Json.Exactness
import PayloadCheck.Proofs.Json.Printing
import PayloadCheck.Proofs.Spec.Routes
import PayloadCheck.Proofs.Store.Operations
import PayloadCheck.Tool.Call

namespace PayloadCheck

open Json Schema

/-- A printed value is parsed as that value, if it can be read again, is not too deep and holds no integer
that is too long. -/
theorem Json.parse_render {v : Value} (rereads : v.Rereads) (shallow : v.height ≤ nestingLimit)
    (short : ¬ v.HoldsLong) :
    ∃ text, render? 0 v = some text ∧ Ascii text ∧ Text.allBlank text = false ∧
      parse text = (.valid, v) := by
  cases printed : render? 0 v with
  | none => exact absurd ((render?_eq_none 0 v).mp printed) short
  | some text =>
    have finite := v.isFinite_iff.mpr fun x held => absurd held (rereads.floatless x)
    obtain ⟨t, prints⟩ := render?_prints v finite printed
    have padded : PaddedText t text := by
      simpa using PaddedText.padded space_nil prints.written space_nil
    exact ⟨text, rfl, prints.ascii, padded.not_blank,
      parse_of_tree padded (prints.within.mono shallow) (prints.denotes rereads)⟩

/-- What an operation's schema inherits from a document: names once, and the limit on depth. -/
structure Schema.Tame (depth : Nat) (v : Value) : Prop where
  once : v.NamesOnce
  shallow : v.height ≤ depth

theorem Spec.inherited_tame {depth : Nat} (room : 2 ≤ depth) : Inherited (Tame depth) where
  children tame w inside := by
    obtain ⟨once, shallow⟩ := tame
    obtain ⟨d, rfl⟩ := Nat.exists_eq_add_one.mpr (by omega : 0 < depth)
    exact ⟨once.children w inside, Nat.le_succ_of_le (Value.height_le.mp shallow w inside)⟩
  reference _ :=
    ⟨.obj (List.nodup_singleton _) (List.forall_mem_singleton.mpr .str), room⟩

/-- A schema that is found is read from an object all of whose names are texts. -/
theorem Spec.readFound_some {room : Nat} {found : Option Value} {node : Node}
    (given : readFound room found = .ok (some node)) :
    ∃ raw, found = some raw ∧ Node.hasStrayName raw = false ∧ Node.ofValue? raw = some node := by
  obtain ⟨raw, rfl, read⟩ := Option.bind_eq_some_iff.mp (readFound_ok given).symm
  refine ⟨raw, rfl, ?_, ofValue?_of_readSchema read⟩
  have enough : Node.calls raw ≤ room := by
    by_contra deep
    unfold readSchema Node.read? at read
    rw [if_pos (Nat.lt_of_not_le deep)] at read
    cases read
  cases stray : Node.hasStrayName raw with
  | false => rfl
  | true =>
    have fault := Node.readError?_of_calls enough
    simp only [readFound, Option.bind_some, fault, stray, if_true] at given
    cases given

/-- What a document says of an operation's schema is read without an error, and is within the limits that the
document is in. -/
theorem Store.schema_tame {limits : Document.Limits} (deep : limits.depth = 64) {ids : Nat → String}
    {commands : List Command} {id method path : String} {node : Node}
    (found : (((empty limits ids).after commands).schema id method path).1 = .ok (some node)) :
    ∃ raw, Tame 64 raw ∧ Node.hasStrayName raw = false ∧ Node.ofValue? raw = some node := by
  have sound : ((empty limits ids).after commands).Sound := (empty_sound _ ids).after commands
  have every : ((empty limits ids).after commands).Every (Tame 64) := by
    refine every_of_brings fun command _ => ?_
    cases command with
    | load text =>
      intro document loaded
      have bound := Document.load_height loaded
      exact ⟨Document.load_namesOnce loaded, by simpa [deep] using bound⟩
    | _ => trivial
  generalize (empty limits ids).after commands = s at found sound every
  rw [sound.schema_eq] at found
  cases holds : s.document id with
  | error e =>
    rw [holds] at found
    exact nomatch found
  | ok document =>
    have resolved := (Spec.Resolver.resolve_answers document s.limits.room method path _ rfl
      (Spec.Resolver.ofDocument_sound s.limits.room document)).1
    rw [holds, Except.bind, resolved] at found
    cases read : Spec.readFound s.limits.room
        (Spec.rawBody? document (Spec.lowerCase method) path) with
    | error e =>
      rw [read] at found
      exact nomatch found
    | ok schema =>
      rw [read] at found
      obtain rfl : schema = some node := Except.ok.inj found
      obtain ⟨raw, atBody, named, described⟩ := Spec.readFound_some read
      exact ⟨raw, (Spec.inherited_tame (by decide)).rawBody? (every.document holds) atBody, named, described⟩

/-- A text is checked against an object that is read without an error as against a schema, with no references
to look up. -/
theorem run_outright {room : Nat} {members : List (String × Value)}
    (clear : Node.readError? room (.obj members) = none) (text : List Char) :
    run text { schema := some (.obj members), room := room } =
      .ok (Id.run (checkText text (pure (some (.raw (.obj members)))) (fun _ => none) room)) := by
  have target : Demand.target { schema := some (.obj members), room := room } =
      pure (some (.raw (.obj members))) := by
    simp only [Demand.target, Demand.outright, clear]
    rfl
  have alone : ∀ spec ∈ (none : Option Value), Spec.Spares spec room (Json.parse text).2.callDepth := by
    rintro _ ⟨⟩
  have readable : ∀ spec ∈ (none : Option Value), Spec.Legible spec := by
    rintro _ ⟨⟩
  obtain ⟨answer, -⟩ := Simulation.checkText_answers
    ((Spec.Resolver.simulation .null room).return_answers (some (.raw (.obj members))))
    (Spec.Resolver.references_mirror alone) (.ofDocument .null) rfl (Spec.Resolver.ofDocument_sound _ _)
  have faultless : Simulation.faultless.answers
      (checkText text (pure (some (.raw (.obj members)))) (fun _ => none) room)
      (checkText text (pure (some (.raw (.obj members)))) (fun _ => none) room) :=
    Simulation.checkText_answers (Simulation.faultless.return_answers _)
      (Simulation.faultless_mirrors readable room (Json.parse text).2.callDepth)
  rw [run, target]
  exact answer.trans faultless

/-- The schema that a tool prints can be given back. Its text is ASCII and parses as the printed value, and
any payload is then checked as against the schema itself, with no references to look up. -/
theorem printed_schema_reads_back {limits : Document.Limits} (deep : limits.depth = 64)
    {ids : Nat → String} {commands : List Store.Command} {id method path : String} {node : Node}
    (found : (((Store.empty limits ids).after commands).schema id method path).1 = .ok (some node))
    (floatless : ∀ x, ¬ node.toValue.Holds (.float x)) (short : ¬ node.toValue.HoldsLong)
    (unsplit : ∀ s, node.toValue.Mentions s → Unsplit s.toList) :
    ∃ printed,
      ((Tool.Call.requestSchema id method path).run ((Store.empty limits ids).after commands)).1 =
        .ok printed ∧
      (∀ c ∈ printed.toList, c.toNat < 0x80) ∧
      Json.parse printed.toList = (.valid, node.toValue) ∧
      ∀ (s : Store) (text : String), 64 ≤ s.limits.room →
        ((Tool.Call.validateJson text (some printed)).run s).1 =
          .ok (Tool.report text.toList
            (Id.run (checkText text.toList (pure (some (.node node))) (fun _ => none) s.limits.room))) := by
  obtain ⟨raw, ⟨once, shallow⟩, named, read⟩ := Store.schema_tame deep found
  have back := Node.toValue_of_read read
  have height : node.toValue.height ≤ 64 :=
    back ▸ Nat.le_trans (Node.restored_height_le raw) shallow
  have written : node.write? = some node.toValue := by
    have depth := Node.depth_le_height node
    have writable : ¬ Node.writingLimit < node.depth := by
      unfold Node.writingLimit
      omega
    rw [Node.write?, if_neg writable]
  obtain ⟨text, printed, ascii, visible, parsed⟩ :=
    parse_render ⟨back ▸ Node.restored_namesOnce raw once, floatless, unsplit⟩
      (Nat.le_trans height (by decide)) short
  have told : ((Tool.Call.requestSchema id method path).run
      ((Store.empty limits ids).after commands)).1 = .ok (String.ofList text) := by
    simp only [Tool.Call.run, found, Tool.answer, Tool.schemaText, written, printed]
  refine ⟨String.ofList text, told, ?_, ?_, fun s payload roomy => ?_⟩
  · rwa [String.toList_ofList]
  · rwa [String.toList_ofList]
  · have given : Tool.givenSchema (some (String.ofList text)) = .ok (some node.toValue) := by
      simp [Tool.givenSchema, visible, parsed, node.toValue_eq, Value.isObject, Value.members?]
    have clear : Node.readError? s.limits.room node.toValue = none :=
      Node.readError?_eq_none (back ▸ Node.hasStrayName_restored raw named) _
    have enough : Node.calls node.toValue ≤ s.limits.room :=
      Nat.le_trans (Node.calls_le_height _) (Nat.le_trans height roomy)
    have again := Node.ofValue?_toValue_of_read read
    rw [node.toValue_eq] at clear enough again given
    have same : Node.ofMembers node.written = node := Option.some.inj again
    have gives := Target.Gives.raw enough
    rw [same] at gives
    have checked := run_outright clear payload.toList
    rw [checkText_congr (.node node) fun v => gives.check_eq (fun _ => none) v] at checked
    simp only [Tool.Call.run, given, Except.bind, checked]

theorem Store.exists_schema {s : Store} {id method path : String} {p : Node → Bool}
    (found : (s.schema id method path).1.toOption.any (·.any p) = true) :
    ∃ node, (s.schema id method path).1 = .ok (some node) ∧ p node = true := by
  obtain ⟨schema, told, some_⟩ := (Option.any_eq_true _ _).mp found
  obtain ⟨node, rfl, holds⟩ := (Option.any_eq_true _ _).mp some_
  exact ⟨node, eq_ok_of_toOption told, holds⟩

/-- A document whose schema has a title beyond ASCII. -/
def moodText : List Char :=
  ["\x7b\"paths\":\x7b\"/mood\":\x7b\"put\":\x7b\"requestBody\":",
    "\x7b\"content\":\x7b\"*/*\":\x7b\"schema\":",
    "\x7b\"type\":\"string\",\"title\":\"\u00e9\\ud83d\\ude00\"",
    "\x7d\x7d\x7d\x7d\x7d\x7d\x7d\x7d"].flatMap String.toList

/-- The schema of that document. -/
def moodSchema : Node :=
  ⟨some "string", none, [], none, false, none, [("title", .str "\u00e9😀")]⟩

def isMood : Node → Bool
  | ⟨some type, none, [], none, false, none, [(name, .str title)]⟩ =>
    type == "string" && name == "title" && title == "\u00e9😀"
  | _ => false

theorem eq_of_isMood {node : Node} (mood : isMood node = true) : node = moodSchema := by
  unfold isMood at mood
  split at mood
  · simp only [Bool.and_eq_true, beq_iff_eq] at mood
    obtain ⟨⟨rfl, rfl⟩, rfl⟩ := mood
    rfl
  · exact nomatch mood

theorem printed_schema_moodText :
    ∃ printed, Json.parse printed.toList = (.valid, moodSchema.toValue) ∧
      ∀ text : String,
        ((Tool.Call.validateJson text (some printed)).run (.empty {} countedId)).1 =
          .ok (Tool.report text.toList (Id.run (checkText text.toList (pure (some (.node moodSchema)))
            (fun _ => none) standardRoom))) := by
  have mood : (((Store.empty {} countedId).after [.load moodText]).schema
      "00000001" "PUT" "/mood").1.toOption.any (·.any isMood) = true := by decide +kernel
  obtain ⟨node, found, mood⟩ := Store.exists_schema mood
  obtain rfl := eq_of_isMood mood
  have shape : moodSchema.toValue = .obj [("type", .str "string"), ("title", .str "\u00e9😀")] := rfl
  have floatless : ∀ x, ¬ moodSchema.toValue.Holds (.float x) := by
    simp [shape, Value.holds_obj, Value.not_holds_str]
  have short : ¬ moodSchema.toValue.HoldsLong := by
    simp [shape, Value.holdsLong_obj, Value.not_holdsLong_str]
  have unsplit : ∀ s, moodSchema.toValue.Mentions s → Unsplit s.toList := by
    simp only [shape, Value.mentions_obj, Value.mentions_str, List.mem_cons, List.not_mem_nil, or_false,
      exists_eq_or_imp, exists_eq_left]
    rintro s ((rfl | rfl) | rfl | rfl) <;> decide
  obtain ⟨printed, _, _, parsed, checked⟩ := printed_schema_reads_back rfl found floatless short unsplit
  exact ⟨printed, parsed, fun text => checked (.empty {} countedId) text (by decide)⟩

/-- The name of a property that is a pair of surrogates, but not a character. -/
def splitName : String := String.ofList [Text.unpaired 0xD800, Text.unpaired 0xDC00]

/-- A document whose schema has such a property. The first surrogate is written as an escape, the second as it
is. -/
def splitText : List Char :=
  ["\x7b\"paths\":\x7b\"/mood\":\x7b\"put\":\x7b\"requestBody\":",
    "\x7b\"content\":\x7b\"*/*\":\x7b\"schema\":",
    "\x7b\"type\":\"object\",\"properties\":\x7b\"\\ud800"].flatMap String.toList ++
  Text.unpaired 0xDC00 :: "\":\x7b\"type\":\"string\"\x7d\x7d\x7d\x7d\x7d\x7d\x7d\x7d\x7d\x7d".toList

/-- The schema of that document. -/
def splitSchema : Node :=
  ⟨some "object", some [(splitName, ⟨some "string", none, [], none, false, none, []⟩)], [], none, false, none,
    []⟩

def isSplit : Node → Bool
  | ⟨some type, some [(name, ⟨some inner, none, [], none, false, none, []⟩)], [], none, false, none, []⟩ =>
    type == "object" && name == splitName && inner == "string"
  | _ => false

theorem eq_of_isSplit {node : Node} (split_ : isSplit node = true) : node = splitSchema := by
  unfold isSplit at split_
  split at split_
  · simp only [Bool.and_eq_true, beq_iff_eq] at split_
    obtain ⟨⟨rfl, rfl⟩, rfl⟩ := split_
    rfl
  · exact nomatch split_

/-- What is printed of it is not read as the same value: there the two surrogates are one character. -/
theorem printed_schema_splitText :
    let s := (Store.empty {} countedId).after [.load splitText]
    (s.schema "00000001" "put" "/mood").1 = .ok (some splitSchema) ∧
      (∀ x, ¬ splitSchema.toValue.Holds (.float x)) ∧ ¬ splitSchema.toValue.HoldsLong ∧
      ∃ printed, ((Tool.Call.requestSchema "00000001" "put" "/mood").run s).1 = .ok printed ∧
        Json.parse printed.toList ≠ (.valid, splitSchema.toValue) := by
  intro s
  have made : (s.schema "00000001" "put" "/mood").1.toOption.any (·.any isSplit) = true := by
    decide +kernel
  obtain ⟨node, found, made⟩ := Store.exists_schema made
  obtain rfl := eq_of_isSplit made
  have shape : splitSchema.toValue = .obj [("type", .str "object"),
      ("properties", .obj [(splitName, .obj [("type", .str "string")])])] := rfl
  have said : ((Tool.Call.requestSchema "00000001" "put" "/mood").run s).1.toOption.any fun printed =>
      ((Json.parse printed.toList).2.dig? ["properties", splitName]).isNone := by decide +kernel
  refine ⟨found, ?_, ?_, ?_⟩
  · simp [shape, Value.holds_obj, Value.not_holds_str]
  · simp [shape, Value.holdsLong_obj, Value.not_holdsLong_str]
  · obtain ⟨printed, told, lost⟩ := (Option.any_eq_true _ _).mp said
    refine ⟨printed, eq_ok_of_toOption told, fun same => ?_⟩
    rw [same] at lost
    exact absurd lost (by decide)

end PayloadCheck
