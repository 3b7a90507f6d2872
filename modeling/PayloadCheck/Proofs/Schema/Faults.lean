import PayloadCheck.Proofs.Json.Plain
import PayloadCheck.Schema.Node

namespace PayloadCheck.Schema.Node

open Json

theorem callsOfList_le {entries : List (String × Value)} {d : Nat} :
    callsOfList entries ≤ d ↔ ∀ entry ∈ entries, calls entry.2 ≤ d := by
  induction entries with
  | nil => simp [callsOfList]
  | cons entry rest ih =>
    rw [callsOfList, Nat.max_le, ih, List.forall_mem_cons, and_comm]

theorem callsOfMembers_le {members : List (String × Value)} {d : Nat} :
    callsOfMembers members ≤ d ↔
      ∀ member ∈ members, (member.1 = "items" → calls member.2 ≤ d) ∧
        (member.1 = "properties" → callsOfEntries member.2 ≤ d) := by
  induction members with
  | nil => simp [callsOfMembers]
  | cons member rest ih =>
    obtain ⟨key, v⟩ := member
    rw [callsOfMembers, Nat.max_le, ih, List.forall_mem_cons, and_comm]
    refine and_congr_left fun _ => ?_
    by_cases atItems : key = "items"
    · simp [atItems]
    · by_cases atProperties : key = "properties" <;> simp [atItems, atProperties]

theorem hasStrayListed_eq_false {entries : List (String × Value)} :
    hasStrayListed entries = false ↔ ∀ entry ∈ entries, hasStrayName entry.2 = false := by
  induction entries with
  | nil => simp [hasStrayListed]
  | cons entry rest ih => simp [hasStrayListed, ih, and_comm]

theorem hasStrayMember_eq_false {members : List (String × Value)} :
    hasStrayMember members = false ↔
      ∀ member ∈ members, (member.1 = "items" → hasStrayName member.2 = false) ∧
        (member.1 = "properties" → hasStrayEntry member.2 = false) ∧
        (member.1 ∉ ["items", "properties"] → Text.isWhole member.1 = true) := by
  induction members with
  | nil => simp [hasStrayMember]
  | cons member rest ih =>
    obtain ⟨key, v⟩ := member
    rw [hasStrayMember, Bool.or_eq_false_iff, ih, List.forall_mem_cons, and_comm]
    refine and_congr_left fun _ => ?_
    by_cases atItems : key = "items"
    · simp [atItems]
    · by_cases atProperties : key = "properties" <;> simp [atItems, atProperties]

/-- Where all texts consist of characters, every name is a text. -/
theorem hasStrayName_of_whole (v : Value) (whole : v.isWhole = true) : hasStrayName v = false := by
  induction v using Value.induct with
  | step v ih =>
    cases v with
    | obj members =>
      refine hasStrayMember_eq_false.mpr fun member among => ?_
      obtain ⟨named, inner⟩ := Value.haveWhole_iff.mp whole member among
      obtain ⟨itself, inside⟩ := ih member.2 (List.mem_map_of_mem among)
      refine ⟨fun _ => itself inner, fun _ => ?_, fun _ => named⟩
      cases value : member.2 with
      | obj entries =>
        rw [value] at inside inner
        refine hasStrayListed_eq_false.mpr fun entry listed => ?_
        exact inside _ (List.mem_map_of_mem listed) (Value.haveWhole_iff.mp inner entry listed).2
      | _ => rfl
    | _ => rfl

theorem faultOfList?_eq (entries : List (String × Value)) (room : Nat) :
    faultOfList? entries room = entries.findSome? fun entry => fault? entry.2 room := by
  induction entries with
  | nil => rfl
  | cons entry rest ih =>
    rw [faultOfList?, ih, List.findSome?_cons]
    cases fault? entry.2 room <;> rfl

theorem faultOfProperties?_eq (members : List (String × Value)) (room : Nat) :
    faultOfProperties? members room =
      members.findSome? fun member =>
        if member.1 = "properties" then faultOfEntries? member.2 room else none := by
  induction members with
  | nil => rfl
  | cons member rest ih =>
    rw [faultOfProperties?, ih, List.findSome?_cons]
    cases (if member.1 = "properties" then faultOfEntries? member.2 room else none) <;> rfl

theorem faultOfItems?_eq (members : List (String × Value)) (room : Nat) :
    faultOfItems? members room =
      members.findSome? fun member => if member.1 = "items" then fault? member.2 room else none := by
  induction members with
  | nil => rfl
  | cons member rest ih =>
    rw [faultOfItems?, ih, List.findSome?_cons]
    cases (if member.1 = "items" then fault? member.2 room else none) <;> rfl

/-- What a fault says of the value in which it was met. -/
def Fault.Blames (room calls : Nat) (stray : Bool) : Fault → Prop
  | .tooDeep => room < calls
  | .strayName => stray = true

theorem Fault.Blames.outward {room calls outer : Nat} {stray stray' : Bool} {fault : Fault}
    (blames : fault.Blames room calls stray) (deeper : room < calls → room + 1 < outer)
    (further : stray = true → stray' = true) : fault.Blames (room + 1) outer stray' := by
  cases fault with
  | tooDeep => exact deeper blames
  | strayName => exact further blames

theorem blames_of_entries {v : Value} {room : Nat} {fault : Fault}
    (inside : ∀ w ∈ v.children, ∀ {room}, fault? w room = some fault →
      fault.Blames room (calls w) (hasStrayName w))
    (met : faultOfEntries? v room = some fault) :
    fault.Blames room (callsOfEntries v) (hasStrayEntry v) := by
  cases v with
  | obj entries =>
    cases room with
    | zero =>
      obtain rfl := Option.some.inj met
      simp only [Fault.Blames, callsOfEntries]
      omega
    | succ room =>
      rw [faultOfEntries?, faultOfList?_eq] at met
      obtain ⟨entry, among, here⟩ := List.exists_of_findSome?_eq_some met
      refine (inside entry.2 (List.mem_map_of_mem among) here).outward (fun deep => ?_) fun stray => ?_
      · have each := callsOfList_le.mp (Nat.le_refl (callsOfList entries)) entry among
        simp only [callsOfEntries]
        omega
      · by_contra clear
        have named := hasStrayListed_eq_false.mp (Bool.not_eq_true _ ▸ clear) entry among
        exact nomatch named.symm.trans stray
  | _ => exact nomatch met

/-- Where reading is given up there is no room, and where it ends with an error a name is no text. -/
theorem fault?_blames {v : Value} {room : Nat} {fault : Fault} (met : fault? v room = some fault) :
    fault.Blames room (calls v) (hasStrayName v) := by
  induction v using Value.induct generalizing room with
  | step v ih =>
    cases v with
    | obj members =>
      cases room with
      | zero =>
        obtain rfl := Option.some.inj met
        simp only [Fault.Blames, calls]
        omega
      | succ room =>
        have bound := callsOfMembers_le.mp (Nat.le_refl (callsOfMembers members))
        have known (clear : ¬ hasStrayName (.obj members) = true) :=
          hasStrayMember_eq_false.mp (Bool.not_eq_true _ ▸ clear)
        rw [fault?, faultOfProperties?_eq, faultOfItems?_eq, Option.or_eq_some_iff,
          Option.or_eq_some_iff] at met
        rcases met with (atProperties | ⟨-, atItems⟩) | ⟨-, named⟩
        · obtain ⟨⟨key, v⟩, among, here⟩ := List.exists_of_findSome?_eq_some atProperties
          obtain ⟨rfl, inside⟩ := Option.ite_none_right_eq_some.mp here
          have child := List.mem_map_of_mem (f := (·.2)) among
          refine (blames_of_entries (ih v child).2 inside).outward (fun deep => ?_) fun stray => ?_
          · have each : callsOfEntries v ≤ _ := (bound _ among).2 rfl
            simp only [calls]
            omega
          · by_contra clear
            exact Bool.false_ne_true (((known clear _ among).2.1 rfl).symm.trans stray)
        · obtain ⟨⟨key, v⟩, among, here⟩ := List.exists_of_findSome?_eq_some atItems
          obtain ⟨rfl, inside⟩ := Option.ite_none_right_eq_some.mp here
          have child := List.mem_map_of_mem (f := (·.2)) among
          refine ((ih v child).1 inside).outward (fun deep => ?_) fun stray => ?_
          · have each : calls v ≤ _ := (bound _ among).1 rfl
            simp only [calls]
            omega
          · by_contra clear
            exact Bool.false_ne_true (((known clear _ among).1 rfl).symm.trans stray)
        · split at named
          · cases named
          · rename_i unnamed
            obtain rfl := Option.some.inj named
            by_contra clear
            refine unnamed (List.all_eq_true.mpr fun member among => ?_)
            by_cases keyword : member.1 ∈ ["items", "properties"]
            · simp only [List.mem_cons, List.not_mem_nil, or_false] at keyword
              rcases keyword with same | same <;> rw [same] <;> decide
            · exact (known clear member among).2.2 keyword
    | _ => cases met

theorem entries_of_faultless {v : Value} {room : Nat}
    (inside : ∀ w ∈ v.children, ∀ {room}, fault? w room = none → calls w ≤ room ∧ hasStrayName w = false)
    (fine : faultOfEntries? v room = none) : callsOfEntries v ≤ room ∧ hasStrayEntry v = false := by
  cases v with
  | obj entries =>
    cases room with
    | zero => exact nomatch fine
    | succ room =>
      rw [faultOfEntries?, faultOfList?_eq, List.findSome?_eq_none_iff] at fine
      have each (entry : String × Value) (among : entry ∈ entries) :=
        inside entry.2 (List.mem_map_of_mem among) (fine entry among)
      have deepest := callsOfList_le.mpr fun entry among => (each entry among).1
      refine ⟨?_, hasStrayListed_eq_false.mpr fun entry among => (each entry among).2⟩
      rw [callsOfEntries]
      omega
  | _ => exact ⟨Nat.zero_le _, rfl⟩

/-- Nothing goes wrong exactly where there is room for all calls and every name is a text. -/
theorem fault?_eq_none {v : Value} {room : Nat} :
    fault? v room = none ↔ calls v ≤ room ∧ hasStrayName v = false := by
  constructor
  · induction v using Value.induct generalizing room with
    | step v ih =>
      intro fine
      cases v with
      | obj members =>
        cases room with
        | zero => exact nomatch fine
        | succ room =>
          rw [fault?, faultOfProperties?_eq, faultOfItems?_eq, Option.or_eq_none_iff,
            Option.or_eq_none_iff, List.findSome?_eq_none_iff, List.findSome?_eq_none_iff] at fine
          obtain ⟨⟨properties, items⟩, named⟩ := fine
          have atItems (member : String × Value) (among : member ∈ members) (same : member.1 = "items") :=
            (ih member.2 (List.mem_map_of_mem among)).1 (by simpa [same] using items member among)
          have atProperties (member : String × Value) (among : member ∈ members)
              (same : member.1 = "properties") :=
            entries_of_faultless (ih member.2 (List.mem_map_of_mem among)).2
              (by simpa [same] using properties member among)
          have deepest : callsOfMembers members ≤ room := callsOfMembers_le.mpr fun member among =>
            ⟨fun same => (atItems member among same).1, fun same => (atProperties member among same).1⟩
          refine ⟨?_, hasStrayMember_eq_false.mpr fun member among =>
            ⟨fun same => (atItems member among same).2, fun same => (atProperties member among same).2,
              fun _ => ?_⟩⟩
          · rw [calls]
            omega
          · split at named
            · rename_i whole
              exact List.all_eq_true.mp whole member among
            · exact nomatch named
      | _ => exact ⟨Nat.zero_le _, rfl⟩
  · rintro ⟨enough, named⟩
    cases met : fault? v room with
    | none => rfl
    | some fault =>
      have blames := fault?_blames met
      cases fault with
      | tooDeep => exact absurd blames (Nat.not_lt.mpr enough)
      | strayName => exact nomatch named.symm.trans blames

theorem readError?_eq_none {v : Value} (named : hasStrayName v = false) (room : Nat) :
    readError? room v = none := by
  unfold readError?
  split
  · rename_i met
    exact nomatch named.symm.trans (fault?_blames met)
  · rfl

/-- Where there is room for all calls, reading ends with an error exactly if a name is no text. -/
theorem readError?_of_calls {v : Value} {room : Nat} (enough : calls v ≤ room) :
    readError? room v = if hasStrayName v then some strayName else none := by
  cases stray : hasStrayName v with
  | false => rw [readError?_eq_none stray, if_neg Bool.false_ne_true]
  | true =>
    cases met : fault? v room with
    | none => exact nomatch (fault?_eq_none.mp met).2.symm.trans stray
    | some fault =>
      cases fault with
      | tooDeep => exact absurd (fault?_blames met) (Nat.not_lt.mpr enough)
      | strayName => rw [readError?, met, if_pos rfl]

end PayloadCheck.Schema.Node
