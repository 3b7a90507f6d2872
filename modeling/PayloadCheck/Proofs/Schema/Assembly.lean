import PayloadCheck.Proofs.Schema.Pruning
import PayloadCheck.Proofs.Schema.Report

namespace PayloadCheck.Schema

open Json Node

/-- What a field is given: a value of the document, or what was made of values inside it. -/
inductive Field
  | value (v : Value)
  | schema (n : Node)
  | schemas (entries : List (String × Node))

abbrev Fields := List (String × Field)

namespace Field

def value? : Field → Option Value
  | .value v => some v
  | _ => none

def string? (field : Field) : Option String := field.value?.bind Value.str?

def truth? : Field → Option Bool
  | .value (.bool b) => some b
  | _ => none

def strings? : Field → Option (List String)
  | .value (.arr values) => values.mapM Value.str?
  | _ => none

def schema? : Field → Option Node
  | .schema n => some n
  | _ => none

def schemas? : Field → Option (List (String × Node))
  | .schemas entries => some entries
  | _ => none

def ofText : Value → Option Field
  | .str s => some (.value (.str s))
  | _ => none

def ofListing : Value → Option Field
  | .arr values => some (.value (.arr ((names (.arr values)).map .str)))
  | _ => none

def ofFlag : Value → Option Field
  | .bool b => some (.value (.bool b))
  | _ => none

/-- The field has the type that is declared for its name. No type is declared for the names that are no
keywords. -/
def fits (name : String) (field : Field) : Bool :=
  if name = "type" ∨ name = "$ref" then field.string?.isSome
  else if name = "properties" then field.schemas?.isSome
  else if name = "required" then field.strings?.isSome
  else if name = "items" then field.schema?.isSome
  else if name = "nullable" then field.truth?.isSome
  else true

end Field

namespace Fields

/-- Each name is given once and is a text, and what it is given is of its type. -/
structure Fit (fields : Fields) : Prop where
  once : (fields.map (·.1)).Nodup
  named : ∀ field ∈ fields, Text.isWhole field.1 = true
  typed : ∀ field ∈ fields, field.2.fits field.1 = true

/-- The values under names that are no keywords. -/
def extras (fields : Fields) : List (String × Value) :=
  fields.filterMap fun field => if field.1 ∈ keywords then none else field.2.value?.map (field.1, ·)

/-- The schema that has the fields, and the defaults of those that are not given. -/
def node (fields : Fields) : Node where
  type := (lookup? "type" fields).bind Field.string?
  properties := (lookup? "properties" fields).bind Field.schemas?
  required := ((lookup? "required" fields).bind Field.strings?).getD []
  items := (lookup? "items" fields).bind Field.schema?
  nullable := ((lookup? "nullable" fields).bind Field.truth?).getD false
  ref := (lookup? "$ref" fields).bind Field.string?
  extras := fields.extras

/-- The fields that are there. -/
def present (listed : List (String × Option Field)) : Fields :=
  listed.filterMap fun field => field.2.map (field.1, ·)

/-- What the keywords of an object say. -/
def ofKeywords (members : List (String × Value)) (properties : Option (List (String × Node)))
    (items : Option Node) : List (String × Option Field) :=
  [("type", (lookup? "type" members).bind Field.ofText), ("properties", properties.map .schemas),
   ("required", (lookup? "required" members).bind Field.ofListing), ("items", items.map .schema),
   ("nullable", (lookup? "nullable" members).bind Field.ofFlag),
   ("$ref", (lookup? "$ref" members).bind Field.ofText)]

/-- The fields of the schema that the members of an object describe. -/
def ofMembers (members : List (String × Value)) (properties : Option (List (String × Node)))
    (items : Option Node) : Fields :=
  (extraMembers members).map (fun member => (member.1, .value member.2)) ++
    present (ofKeywords members properties items)

end Fields

/-- Why no schema comes of a value. -/
inductive Failure (ε : Type)
  | tooDeep
  | refused (reason : ε)

/-- What went wrong with reading. -/
def Failure.fault {ε : Type} : Failure ε → Node.Fault
  | .tooDeep => .tooDeep
  | .refused _ => .strayName

section

variable {ε : Type} (make : Fields → Except ε Node)

def made (fields : Fields) : Except (Failure ε) Node := (make fields).mapError .refused

section

variable (inner : List (String × Value) → Except (Failure ε) Node)

def assembledEntry : String × Value → Except (Failure ε) (String × Node)
  | (name, .obj members) => return (name, ← inner members)
  | (name, _) => return (name, ← made make [])

def assembledItems : Option Value → Except (Failure ε) (Option Node)
  | some (.obj members) => some <$> inner members
  | _ => return none

end

/-- Puts together the schemas of properties, if there is room to do so. -/
def assembledProperties (inner? : Option (List (String × Value) → Except (Failure ε) Node)) :
    Option Value → Except (Failure ε) (Option (List (String × Node)))
  | some (.obj entries) =>
    match inner? with
    | none => .error .tooDeep
    | some inner => some <$> entries.mapM (assembledEntry make inner)
  | _ => return none

/-- Puts together the schema that the members of an object describe, from the inside, where there is room
for so many calls. Properties take one call for all of them besides one for each. -/
def assembled : (room : Nat) → List (String × Value) → Except (Failure ε) Node
  | 0, _ => .error .tooDeep
  | room + 1, members => do
    let inner? := match room with
      | 0 => none
      | room + 1 => some (assembled room)
    let properties ← assembledProperties make inner? (lookup? "properties" members)
    let items ← assembledItems (assembled room) (lookup? "items" members)
    made make (.ofMembers members properties items)

/-- Puts together the schema that a value describes, if it is an object. -/
def assembled? (room : Nat) : Value → Except (Failure ε) (Option Node)
  | .obj members => some <$> assembled make room members
  | _ => return none

end

theorem mapM_str? (listed : List String) : (listed.map Value.str).mapM Value.str? = some listed := by
  induction listed with
  | nil => rfl
  | cons s rest ih => rw [List.map_cons, List.mapM_cons, ih]; rfl

namespace Fields

theorem lookup?_present_cons (name other : String) (field : Option Field)
    (rest : List (String × Option Field)) :
    lookup? other (present ((name, field) :: rest)) =
      (if name = other then field else none).or (lookup? other (present rest)) := by
  cases field with
  | none => rw [ite_self, Option.none_or]; rfl
  | some given =>
    rw [show present ((name, some given) :: rest) = (name, given) :: present rest from rfl, lookup?]
    split
    · rfl
    · rfl

theorem present_names (listed : List (String × Option Field)) :
    ((present listed).map (·.1)).Sublist (listed.map (·.1)) := by
  induction listed with
  | nil => exact .slnil
  | cons first rest ih =>
    obtain ⟨name, _ | given⟩ := first
    · exact ih.cons _
    · exact ih.cons_cons _

theorem lookup?_present {listed : List (String × Option Field)} (once : (listed.map (·.1)).Nodup)
    {name : String} {field : Option Field} (among : (name, field) ∈ listed) :
    lookup? name (present listed) = field := by
  induction listed with
  | nil => exact nomatch among
  | cons first rest ih =>
    obtain ⟨key, given⟩ := first
    obtain ⟨new, others⟩ := List.nodup_cons.mp once
    rw [lookup?_present_cons]
    rcases List.mem_cons.mp among with same | later
    · obtain ⟨rfl, rfl⟩ := Prod.mk.inj same
      have absent : lookup? name (present rest) = none := lookup?_eq_none.mpr fun entry held hit =>
        new ((present_names rest).subset (List.mem_map.mpr ⟨entry, held, hit⟩))
      rw [if_pos rfl, absent, Option.or_none]
    · have other : key ≠ name := fun same => new (List.mem_map.mpr ⟨_, later, same.symm⟩)
      rw [if_neg other, Option.none_or, ih others later]

variable (members : List (String × Value)) (properties : Option (List (String × Node)))
  (items : Option Node)

theorem ofKeywords_names : (ofKeywords members properties items).map (·.1) = keywords := rfl

theorem keywords_nodup : keywords.Nodup := by decide

theorem lookup?_ofMembers {name : String} {field : Option Field}
    (among : (name, field) ∈ ofKeywords members properties items) :
    lookup? name (ofMembers members properties items) = field := by
  have known : name ∈ keywords :=
    ofKeywords_names members properties items ▸ List.mem_map_of_mem among
  have extra : lookup? name ((extraMembers members).map fun member => (member.1, Field.value member.2)) =
      none := by
    rw [lookup?_map, lookup?_extra (extraMembers_extra members) known]
    rfl
  rw [ofMembers, lookup?_append, extra, Option.none_or]
  exact lookup?_present (ofKeywords_names members properties items ▸ keywords_nodup) among

theorem fits_extra {name : String} (extra : name ∉ keywords) (field : Field) : field.fits name = true := by
  simp only [keywords, List.mem_cons, List.not_mem_nil, or_false, not_or] at extra
  obtain ⟨notType, notProperties, notRequired, notItems, notNullable, notRef⟩ := extra
  simp only [Field.fits, notType, notProperties, notRequired, notItems, notNullable, notRef, or_self,
    if_false]

theorem fits_keyword {name : String} {field : Field}
    (among : (name, some field) ∈ ofKeywords members properties items) : field.fits name = true := by
  simp only [ofKeywords, List.mem_cons, Prod.mk.injEq, List.not_mem_nil, or_false] at among
  have text {x : Option Value} (kept : some field = x.bind Field.ofText) : field.string?.isSome = true := by
    obtain ⟨v, -, made⟩ := Option.bind_eq_some_iff.mp kept.symm
    cases v with
    | str s => exact Option.some.inj made ▸ rfl
    | _ => cases made
  rcases among with ⟨rfl, type⟩ | ⟨rfl, listed⟩ | ⟨rfl, required⟩ | ⟨rfl, inner⟩ | ⟨rfl, nullable⟩ |
    ⟨rfl, ref⟩
  · exact text type
  · obtain ⟨entries, -, rfl⟩ := Option.map_eq_some_iff.mp listed.symm
    rfl
  · obtain ⟨v, -, made⟩ := Option.bind_eq_some_iff.mp required.symm
    cases v with
    | arr values => exact Option.some.inj made ▸ congrArg Option.isSome (mapM_str? (names (.arr values)))
    | _ => cases made
  · obtain ⟨n, -, rfl⟩ := Option.map_eq_some_iff.mp inner.symm
    rfl
  · obtain ⟨v, -, made⟩ := Option.bind_eq_some_iff.mp nullable.symm
    cases v with
    | bool b => exact Option.some.inj made ▸ rfl
    | _ => cases made
  · exact text ref

/-- Whatever the shapes of the members are, the fields have their types. -/
theorem ofMembers_fit (once : (members.map (·.1)).Nodup)
    (whole : ∀ member ∈ members, Text.isWhole member.1 = true) : (ofMembers members properties items).Fit := by
  have extra := extraMembers_extra members
  have named := present_names (ofKeywords members properties items)
  rw [ofKeywords_names] at named
  have fit (field : String × Field) (held : field ∈ ofMembers members properties items) :
      Text.isWhole field.1 = true ∧ field.2.fits field.1 = true := by
    rcases List.mem_append.mp held with other | keyword
    · obtain ⟨member, among, rfl⟩ := List.mem_map.mp other
      exact ⟨whole member (List.mem_of_mem_filter among), fits_extra (extra member among) _⟩
    · have known : field.1 ∈ keywords := named.subset (List.mem_map_of_mem keyword)
      obtain ⟨⟨name, given⟩, among, kept⟩ := List.mem_filterMap.mp keyword
      obtain ⟨given, rfl, rfl⟩ := Option.map_eq_some_iff.mp kept
      exact ⟨keywords_whole _ known, fits_keyword members properties items among⟩
  refine ⟨?_, fun field held => (fit field held).1, fun field held => (fit field held).2⟩
  rw [ofMembers, List.map_append, List.map_map]
  refine List.nodup_append.mpr ⟨(List.filter_sublist.map _).nodup once, named.nodup keywords_nodup, ?_⟩
  rintro name among _ known rfl
  obtain ⟨member, held, rfl⟩ := List.mem_map.mp among
  exact extra member held (named.subset known)

theorem extras_ofMembers : (ofMembers members properties items).extras = extraMembers members := by
  have extra := extraMembers_extra members
  have known (field : String × Field) (held : field ∈ present (ofKeywords members properties items)) :
      field.1 ∈ keywords := by
    rw [← ofKeywords_names members properties items]
    exact (present_names _).subset (List.mem_map_of_mem held)
  have kept : extras ((extraMembers members).map fun member => (member.1, .value member.2)) =
      extraMembers members := by
    rw [extras, List.filterMap_map, List.filterMap_congr (g := some), List.filterMap_some]
    exact fun member held => if_neg (extra member held)
  have gone : extras (present (ofKeywords members properties items)) = [] :=
    List.filterMap_eq_nil_iff.mpr fun field held => if_pos (known field held)
  rw [extras, ofMembers, List.filterMap_append]
  exact (congrArg₂ _ kept gone).trans (List.append_nil _)

theorem string?_ofText (x : Option Value) : (x.bind Field.ofText).bind Field.string? = x.bind Value.str? := by
  rcases x with _ | v
  · rfl
  · cases v <;> rfl

theorem strings?_ofListing (x : Option Value) :
    ((x.bind Field.ofListing).bind Field.strings?).getD [] = (x.map names).getD [] := by
  rcases x with _ | v
  · rfl
  · cases v with
    | arr values => exact congrArg (Option.getD · []) (mapM_str? _)
    | _ => rfl

theorem truth?_ofFlag (x : Option Value) :
    ((x.bind Field.ofFlag).bind Field.truth?).getD false = (x.map Value.isTrue).getD false := by
  rcases x with _ | v
  · rfl
  · cases v <;> rfl

/-- The schema that has the fields is the one that the members describe. -/
theorem node_ofMembers :
    (ofMembers members ((lookup? "properties" members).bind properties?)
      ((lookup? "items" members).bind ofValue?)).node = Node.ofMembers members := by
  generalize listing : (lookup? "properties" members).bind properties? = properties
  generalize inside : (lookup? "items" members).bind ofValue? = items
  have found (entry : String × Option Field) (among : entry ∈ ofKeywords members properties items) :=
    lookup?_ofMembers members properties items among
  simp only [ofKeywords, List.forall_mem_cons] at found
  obtain ⟨type, listed, required, inner, nullable, ref, -⟩ := found
  rw [node, Node.ofMembers_eq, extras_ofMembers, type, listed, required, inner, nullable, ref,
    string?_ofText, string?_ofText, strings?_ofListing, truth?_ofFlag, listing, inside]
  cases properties <;> cases items <;> rfl

end Fields

/-- Reading meets a fault, or gives a result. -/
def Reads {ε α : Type} (x : Except (Failure ε) α) (fault : Option Node.Fault) (a : α) : Prop :=
  x.mapError Failure.fault = match fault with
    | none => .ok a
    | some fault => .error fault

namespace Reads

variable {ε α β : Type} {x : Except (Failure ε) α} {fault fault' : Option Node.Fault} {a : α}

theorem done (a : α) : Reads (ε := ε) (pure a) none a := rfl

/-- What goes wrong first is what goes wrong. -/
theorem bind {f : α → Except (Failure ε) β} {b : β} (first : Reads x fault a) (next : Reads (f a) fault' b) :
    Reads (x >>= f) (fault.or fault') b := by
  cases x with
  | error reason =>
    cases fault with
    | none => exact nomatch first
    | some fault =>
      obtain rfl := Except.error.inj first
      exact rfl
  | ok given =>
    cases fault with
    | none =>
      obtain rfl := Except.ok.inj first
      exact next
    | some fault => exact nomatch first

theorem map (first : Reads x fault a) (f : α → β) : Reads (f <$> x) fault (f a) := by
  have mapped := first.bind (f := fun a => pure (f a)) (done (f a))
  rwa [Option.or_none, ← map_eq_pure_bind] at mapped

end Reads

/-- Where each name occurs once, a search under one name is a look-up. -/
theorem findSome?_named {α : Type} {members : List (String × Value)} (once : (members.map (·.1)).Nodup)
    (name : String) (f : Value → Option α) :
    members.findSome? (fun member => if member.1 = name then f member.2 else none) =
      (lookup? name members).bind f := by
  induction members with
  | nil => rfl
  | cons member rest ih =>
    obtain ⟨key, v⟩ := member
    obtain ⟨new, others⟩ := List.nodup_cons.mp once
    by_cases same : key = name
    · subst same
      have absent : lookup? key rest = none :=
        lookup?_eq_none.mpr fun entry among hit => new (List.mem_map.mpr ⟨entry, among, hit⟩)
      simp only [List.findSome?_cons, ih others, absent, Option.bind_none, lookup?, if_true, Option.bind_some]
      cases f v <;> rfl
    · simp only [List.findSome?_cons, ih others, lookup?, same, if_false]

section

variable {ε : Type} {make : Fields → Except ε Node}
  (accepts : ∀ fields : Fields, fields.Fit → make fields = .ok fields.node)
include accepts

theorem made_of_fit {fields : Fields} (fit : fields.Fit) : Reads (made make fields) none fields.node := by
  rw [made, accepts fields fit]
  rfl

section

variable {inner : List (String × Value) → Except (Failure ε) Node} {room : Nat}
  (given : ∀ members, (Value.obj members).NamesOnce →
    Reads (inner members) (fault? (.obj members) room) (Node.ofMembers members))
include given

theorem assembledEntry_reads {entry : String × Value} (once : entry.2.NamesOnce) :
    Reads (assembledEntry make inner entry) (fault? entry.2 room) (entry.1, described entry.2) := by
  obtain ⟨name, v⟩ := entry
  have named {x : Except (Failure ε) Node} {fault : Option Node.Fault} {n : Node} (reads : Reads x fault n) :
      Reads (do return (name, ← x)) fault (name, n) := by
    simpa only [map_eq_pure_bind] using reads.map (name, ·)
  cases v with
  | obj members => exact named (given members once)
  | _ =>
    have blank : Fields.Fit [] := ⟨.nil, List.forall_mem_nil _, List.forall_mem_nil _⟩
    have reads := named (made_of_fit accepts blank)
    cases room <;> exact reads

theorem assembledEntries_read {entries : List (String × Value)}
    (once : ∀ entry ∈ entries, entry.2.NamesOnce) :
    Reads (entries.mapM (assembledEntry make inner)) (faultOfList? entries room) (ofEntries entries) := by
  induction entries with
  | nil => rfl
  | cons entry rest ih =>
    obtain ⟨here, others⟩ := List.forall_mem_cons.mp once
    have list := (assembledEntry_reads accepts given here).bind
      (f := fun e => do return e :: (← rest.mapM (assembledEntry make inner))) ((ih others).bind (.done _))
    rw [Option.or_none] at list
    rw [List.mapM_cons]
    exact list

omit accepts in
theorem assembledItems_reads {v : Value} (once : v.NamesOnce) :
    Reads (assembledItems inner (some v)) (fault? v room) (ofValue? v) := by
  cases v with
  | obj members => exact (given members once).map some
  | _ => cases room <;> rfl

end

theorem assembledProperties_read {inner? : Option (List (String × Value) → Except (Failure ε) Node)}
    {room : Nat} (none : room = 0 → inner? = none)
    (given : ∀ less, room = less + 1 → ∃ inner, inner? = some inner ∧
      ∀ members, (Value.obj members).NamesOnce →
        Reads (inner members) (fault? (.obj members) less) (Node.ofMembers members))
    {v : Value} (once : v.NamesOnce) :
    Reads (assembledProperties make inner? (some v)) (faultOfEntries? v room) (properties? v) := by
  cases once with
  | @obj entries _ each =>
    cases room with
    | zero =>
      rw [none rfl]
      rfl
    | succ room =>
      obtain ⟨inner, rfl, reads⟩ := given room rfl
      exact (assembledEntries_read accepts reads each).map some
  | _ => cases room <;> rfl

variable (refuses : ∀ fields : Fields, (∃ field ∈ fields, Text.isWhole field.1 = false) →
  ∃ reason, make fields = .error reason)
include refuses

theorem made_reads {members : List (String × Value)} (once : (members.map (·.1)).Nodup) :
    Reads (made make (.ofMembers members ((lookup? "properties" members).bind properties?)
        ((lookup? "items" members).bind ofValue?)))
      (if members.all fun member => Text.isWhole member.1 then none else some .strayName)
      (Node.ofMembers members) := by
  by_cases whole : ∀ member ∈ members, Text.isWhole member.1 = true
  · rw [if_pos (List.all_eq_true.mpr whole), ← Fields.node_ofMembers]
    exact made_of_fit accepts (Fields.ofMembers_fit _ _ _ once whole)
  · rw [if_neg (fun all => whole (List.all_eq_true.mp all))]
    push Not at whole
    obtain ⟨member, among, stray⟩ := whole
    have stray : Text.isWhole member.1 = false := Bool.not_eq_true _ ▸ stray
    have other : member.1 ∉ keywords := fun known => nomatch stray.symm.trans (keywords_whole _ known)
    have extra : member ∈ extraMembers members := List.mem_filter.mpr ⟨among, by simpa using other⟩
    obtain ⟨reason, refused⟩ := refuses _
      ⟨_, List.mem_append_left _ (List.mem_map_of_mem (f := fun m => (m.1, Field.value m.2)) extra), stray⟩
    rw [made, Fields.ofMembers, refused]
    rfl

omit accepts refuses in
theorem assembled_succ (make : Fields → Except ε Node) (room : Nat) (members : List (String × Value)) :
    ∃ inner?, (room = 0 → inner? = none) ∧ (∀ less, room = less + 1 → inner? = some (assembled make less)) ∧
      assembled make (room + 1) members =
        (assembledProperties make inner? (lookup? "properties" members) >>= fun properties =>
          assembledItems (assembled make room) (lookup? "items" members) >>= fun items =>
            made make (.ofMembers members properties items)) := by
  cases room with
  | zero => exact ⟨none, fun _ => rfl, nofun, rfl⟩
  | succ less =>
    refine ⟨some (assembled make less), nofun, ?_, rfl⟩
    rintro _ ⟨⟩
    rfl

/-- The induction is on the room, of which each nested schema takes some. -/
theorem assembled_reads (room : Nat) {members : List (String × Value)}
    (once : (Value.obj members).NamesOnce) :
    Reads (assembled make room members) (fault? (.obj members) room) (Node.ofMembers members) := by
  induction room using Nat.strong_induction_on generalizing members with
  | _ room ih =>
    obtain ⟨names, each⟩ : (members.map (·.1)).Nodup ∧ ∀ member ∈ members, member.2.NamesOnce := by
      cases once with
      | obj names each => exact ⟨names, each⟩
    cases room with
    | zero => rfl
    | succ room =>
      have inner (less : Nat) (fewer : less < room + 1) (ms : List (String × Value))
          (once : (Value.obj ms).NamesOnce) := ih less fewer once
      rw [fault?, faultOfProperties?_eq, faultOfItems?_eq,
        findSome?_named names "properties" (faultOfEntries? · room),
        findSome?_named names "items" (fault? · room), Option.or_assoc]
      obtain ⟨inner?, nothing, further, steps⟩ := assembled_succ make room members
      have properties : Reads (assembledProperties make inner? (lookup? "properties" members))
          ((lookup? "properties" members).bind (faultOfEntries? · room))
          ((lookup? "properties" members).bind properties?) := by
        cases found : lookup? "properties" members with
        | none => rfl
        | some v =>
          refine assembledProperties_read accepts nothing (fun less same => ?_) (each _ (mem_of_lookup? found))
          exact ⟨_, further less same, inner less (by omega)⟩
      have items : Reads (assembledItems (assembled make room) (lookup? "items" members))
          ((lookup? "items" members).bind (fault? · room)) ((lookup? "items" members).bind ofValue?) := by
        cases found : lookup? "items" members with
        | none => rfl
        | some v =>
          exact assembledItems_reads (inner room (Nat.lt_succ_self room)) (each _ (mem_of_lookup? found))
      rw [steps]
      exact properties.bind (items.bind (made_reads accepts refuses names))

theorem assembled?_reads (room : Nat) {v : Value} (once : v.NamesOnce) :
    Reads (assembled? make room v) (fault? v room) (ofValue? v) := by
  cases v with
  | obj members => exact (assembled_reads accepts refuses room once).map some
  | _ => cases room <;> rfl

/-- What has no meaning in a schema, or not the shape that it should have, is no constraint: once it is
left out at all depths, all that is left has a meaning, and nothing has changed in what is reported, unless
a name that goes is no text. A schema is always read where there is room and every name is a text, with
whatever makes schemas of fields that have their types and refuses names that are no texts. -/
theorem malformed_means_unconstrained {raw : Value} (once : raw.NamesOnce) :
    AllMeaningful (pruned raw) ∧ (AllMeaningful raw → pruned raw = raw) ∧
      (∀ room, Reads (assembled? make room raw) (fault? raw room) (ofValue? raw)) ∧
      (∀ room, fault? raw room = none ↔ calls raw ≤ room ∧ hasStrayName raw = false) ∧
      (∀ references room data, calls raw ≤ room →
        Id.run (checkRaw (steady references) room data raw) =
          Id.run (checkRaw (steady references) room data (pruned raw))) ∧
      ∀ data d, calls raw ≤ d.room →
        (hasStrayName raw = true → validate data raw d = .error strayName) ∧
        (hasStrayName raw = false →
          (∀ spec ∈ d.document, Spec.Legible spec ∧ Spec.Spares spec d.room data.callDepth) →
          validate data raw d = validate data (pruned raw) d) := by
  refine ⟨allMeaningful_pruned raw, AllMeaningful.pruned_eq,
    fun room => assembled?_reads accepts refuses room once, fun room => fault?_eq_none,
    fun references room data readable => checkRaw_pruned once readable references data,
    fun data d readable => ⟨fun stray => ?_, fun named known => ?_⟩⟩
  · exact validate_error (by rw [readError?_of_calls readable, if_pos stray])
  · have clear := readError?_eq_none (allMeaningful_pruned raw).named d.room
    rw [validate_eq (readError?_eq_none named d.room), validate_eq clear, Target.checkAfter_eq known,
      Target.checkAfter_eq known]
    exact congrArg Except.ok (checkRaw_pruned once readable _ data)

end

/-- Makes a schema of fields that have their types, and tells the first that has not or is no text. -/
def strictly (fields : Fields) : Except String Node :=
  match fields.find? (fun field => !(Text.isWhole field.1 && field.2.fits field.1)) with
  | some field => .error field.1
  | none => .ok fields.node

theorem strictly_accepts (fields : Fields) (fit : fields.Fit) : strictly fields = .ok fields.node := by
  have none : fields.find? (fun field => !(Text.isWhole field.1 && field.2.fits field.1)) = none :=
    List.find?_eq_none.mpr fun field held => by simp [fit.named field held, fit.typed field held]
  rw [strictly, none]

theorem strictly_refuses (fields : Fields) (stray : ∃ field ∈ fields, Text.isWhole field.1 = false) :
    ∃ reason, strictly fields = .error reason := by
  obtain ⟨field, held, unnamed⟩ := stray
  cases found : fields.find? (fun field => !(Text.isWhole field.1 && field.2.fits field.1)) with
  | none => simpa [unnamed] using List.find?_eq_none.mp found field held
  | some first => exact ⟨first.1, by rw [strictly, found]⟩

def malformed : Value := .obj
  [("format", .str "pet"), ("items", .arr []), ("required", .arr [.str "id", .int 7, .str "id"]),
    ("properties", .obj
      [("tags", .bool true), ("home", .obj [("nullable", .int 0), ("type", .str "string")])])]

/-- Of a schema that is malformed throughout, two names and a type are left. A field of the wrong type
would be refused. -/
theorem malformed_means_unconstrained_pet :
    pruned malformed = .obj
        [("required", .arr [.str "id"]), ("properties", .obj [("home", .obj [("type", .str "string")])])] ∧
      strictly [("nullable", .value (.int 0))] = .error "nullable" ∧
      validate (.obj [("tags", .null), ("home", .null)]) malformed {} =
        validate (.obj [("tags", .null), ("home", .null)]) (pruned malformed) {} ∧
      validate (.obj [("tags", .null), ("home", .null)]) malformed {} =
        .ok [⟨"id", "Required field \"id\" is missing"⟩,
          ⟨"home", "Field \"home\" must be of type string, got null"⟩] ∧
      Reads (assembled? strictly standardRoom malformed) none (ofValue? malformed) := by
  have once : malformed.NamesOnce := by
    refine .obj (by decide) ?_
    simp only [List.forall_mem_cons]
    refine ⟨.str, .arr nofun, .arr ?_, .obj (by decide) ?_, nofun⟩
    · simp only [List.forall_mem_cons]
      exact ⟨.str, .int, .str, nofun⟩
    · simp only [List.forall_mem_cons]
      refine ⟨.bool, .obj (by decide) ?_, nofun⟩
      simp only [List.forall_mem_cons]
      exact ⟨.int, .str, nofun⟩
  obtain ⟨-, -, made, faultless, -, checked⟩ :=
    malformed_means_unconstrained strictly_accepts strictly_refuses once
  have fine : fault? malformed standardRoom = none := (faultless standardRoom).mpr ⟨by decide, by decide⟩
  refine ⟨rfl, rfl, (checked _ {} (by decide)).2 (by decide) nofun, by decide, ?_⟩
  rw [← fine]
  exact made standardRoom

def strayNamed : Value := .obj [(String.singleton (Text.unpaired 0xD800), .int 1)]

/-- A schema with a name that is no text is refused, though the name has no meaning. -/
theorem strayNamed_refused :
    pruned strayNamed = .obj [] ∧ validate (.obj []) strayNamed {} = .error strayName ∧
      validate (.obj []) (pruned strayNamed) {} = .ok [] :=
  ⟨rfl, by decide, by decide⟩

end PayloadCheck.Schema
