import PayloadCheck.Proofs.Json.Reading

namespace PayloadCheck.Json

/-- What an array holds before its next item: nothing, or items with a comma behind each. -/
inductive ItemsBefore (d : Nat) : List Char → Prop
  | none : ItemsBefore d []
  | some {ts : List Tree} {items w : List Char} :
      ItemsText ts items → (∀ t ∈ ts, t.Within d) → Space w → ItemsBefore d (items ++ ',' :: w)

/-- What an object holds before its next member: nothing, or members with a comma behind each. -/
inductive MembersBefore (d : Nat) : List Char → Prop
  | none : MembersBefore d []
  | some {ms : List (List Piece × Tree)} {members w : List Char} :
      MembersText ms members → (∀ m ∈ ms, m.2.Within d) → Space w →
      MembersBefore d (members ++ ',' :: w)

/-- The place of a value in a value, given by the texts before it and behind it. The outer value lies
within the first limit if the inner one lies within the second. -/
inductive Frame : Nat → Nat → List Char → List Char → Prop
  | here {d : Nat} : Frame d d [] []
  | item {d e : Nat} {w front before behind : List Char} :
      Space w → ItemsBefore d front → Frame d e before behind →
      Frame (d + 1) e ('[' :: (w ++ (front ++ before))) (behind ++ [']'])
  | member {d e : Nat} {name : List Piece} {w front nameText u v before behind : List Char} :
      Space w → MembersBefore d front → StringText name nameText → Space u → Space v →
      Frame d e before behind →
      Frame (d + 1) e ('\x7b' :: (w ++ (front ++ (nameText ++ (u ++ ':' :: (v ++ before))))))
        (behind ++ ['\x7d'])

theorem ItemsText.concat {ts : List Tree} {t : Tree} {items text : List Char}
    (written : ItemsText ts items) (last : PaddedText t text) :
    ItemsText (ts ++ [t]) (items ++ ',' :: text) := by
  induction ts generalizing items with
  | nil => cases written
  | cons first ts ih =>
    cases written with
    | one item => exact .more item (.one last)
    | more item others =>
      rw [List.append_assoc]
      exact .more item (ih others)

theorem MembersText.concat {ms : List (List Piece × Tree)} {m : List Piece × Tree}
    {members text : List Char} (written : MembersText ms members) (last : MemberText m text) :
    MembersText (ms ++ [m]) (members ++ ',' :: text) := by
  induction ms generalizing members with
  | nil => cases written
  | cons first ms ih =>
    cases written with
    | one member => exact .more member (.one last)
    | more member others =>
      rw [List.append_assoc]
      exact .more member (ih others)

/-- An item behind those before it. -/
theorem ItemsBefore.complete {d : Nat} {front text : List Char} {t : Tree}
    (earlier : ItemsBefore d front) (last : PaddedText t text) :
    ∃ ts, ItemsText (ts ++ [t]) (front ++ text) ∧ ∀ t ∈ ts, t.Within d := by
  cases earlier with
  | none => exact ⟨[], .one last, List.forall_mem_nil _⟩
  | @some ts items w written within space =>
    refine ⟨ts, ?_, within⟩
    rw [List.append_assoc, List.cons_append]
    exact written.concat (last.after_space space)

theorem MembersBefore.complete {d : Nat} {front text : List Char} {m : List Piece × Tree}
    (earlier : MembersBefore d front) (last : MemberText m text) :
    ∃ ms, MembersText (ms ++ [m]) (front ++ text) ∧ ∀ m ∈ ms, m.2.Within d := by
  cases earlier with
  | none => exact ⟨[], .one last, List.forall_mem_nil _⟩
  | @some ms members w written within space =>
    refine ⟨ms, ?_, within⟩
    rw [List.append_assoc, List.cons_append]
    exact written.concat (last.after_space space)

/-- Every value fits in a frame. -/
theorem Frame.fill {d e : Nat} {before behind text : List Char} {t : Tree}
    (frame : Frame d e before behind) (written : TreeText t text) :
    ∃ u, TreeText u (before ++ (text ++ behind)) ∧ (t.Within e → u.Within d) := by
  induction frame with
  | here => exact ⟨t, by simpa using written, id⟩
  | @item d e w front before behind space earlier _ ih =>
    obtain ⟨u, inner, within⟩ := ih
    obtain ⟨ts, items, others⟩ := earlier.complete inner.padded
    refine ⟨.array (ts ++ [u]), ?_, fun fits => Tree.within_array.mpr fun s among => ?_⟩
    · simpa using TreeText.array (items.after_space space)
    · rcases List.mem_append.mp among with other | last
      · exact others s other
      · exact List.mem_singleton.mp last ▸ within fits
  | @member d e name w front nameText u v before behind space earlier named spaceName spaceValue _ ih =>
    obtain ⟨inner, value, within⟩ := ih
    have last := MemberText.pair space_nil named spaceName (value.padded.after_space spaceValue)
    obtain ⟨ms, members, others⟩ := earlier.complete last
    refine ⟨.object (ms ++ [(name, inner)]), ?_, fun fits => Tree.within_object.mpr fun m among => ?_⟩
    · simpa using TreeText.object (members.after_space space)
    · rcases List.mem_append.mp among with other | last
      · exact others m other
      · exact List.mem_singleton.mp last ▸ within fits

/-- A member cannot be read for its name, or for what stands behind the name. -/
inductive MemberStuck : List Char → Refusal → Prop
  | noName {text : List Char} : MemberStuck text (.malformed .propertyName text)
  | name {text : List Char} {refusal : Refusal} :
      stringBody text = .error refusal → MemberStuck ('"' :: text) refusal
  | noColon {name : List Piece} {nameText w rest : List Char} :
      StringText name nameText → Space w →
      MemberStuck (nameText ++ (w ++ rest)) (.malformed .colon rest)

/-- A value cannot be read, for a reason that lies in no value nested in it. -/
inductive Stuck : List Char → Refusal → Prop
  | noValue {text : List Char} : Stuck text (.malformed .value text)
  | constant (name : Constant) (rest : List Char) :
      Stuck (name.name.toList ++ rest) (.constant name (name.name.toList ++ rest))
  | longNumber {text : List Char} {digits : Nat} : Stuck text (.tooManyDigits digits)
  | tooDeep {text : List Char} {container : Container} : Stuck text (.tooDeep container)
  | string {text : List Char} {refusal : Refusal} :
      stringBody text = .error refusal → Stuck ('"' :: text) refusal
  | afterItem {ts : List Tree} {w items rest : List Char} :
      Space w → ItemsText ts items →
      Stuck ('[' :: (w ++ (items ++ rest))) (.malformed .comma rest)
  | atMember {d : Nat} {w front text : List Char} {refusal : Refusal} :
      Space w → MembersBefore d front → MemberStuck text refusal →
      Stuck ('\x7b' :: (w ++ (front ++ text))) refusal
  | afterMember {ms : List (List Piece × Tree)} {w members rest : List Char} :
      Space w → MembersText ms members →
      Stuck ('\x7b' :: (w ++ (members ++ rest))) (.malformed .comma rest)

/-- Reading a value within a limit ends at a place in it. -/
def StuckIn (d : Nat) (text : List Char) (refusal : Refusal) : Prop :=
  ∃ e before behind place,
    Frame d e before behind ∧ text = before ++ place ∧ Stuck place refusal

theorem Stuck.stuckIn {d : Nat} {text : List Char} {refusal : Refusal} (stuck : Stuck text refusal) :
    StuckIn d text refusal :=
  ⟨d, [], [], text, .here, rfl, stuck⟩

theorem plain_stuck {text : List Char} {refusal : Refusal} (refused : plain false text = .error refusal) :
    Stuck text refusal := by
  unfold plain at refused
  split at refused
  · cases refused
  · cases refused
  · cases refused
  · cases refused
    exact .constant .nan _
  · cases refused
    exact .constant .infinity _
  · cases refused
    exact .constant .negativeInfinity _
  · unfold number at refused
    split at refused
    · cases refused
      exact .noValue
    · split at refused
      · cases refused
      · rename_i n _ _ failed
        cases refused
        unfold Numeral.value at failed
        split at failed
        · split at failed
          · cases failed
            exact .longNumber
          · cases failed
        · cases failed

theorem ItemsBefore.cons {d : Nat} {t : Tree} {text w front : List Char} (item : PaddedText t text)
    (within : t.Within d) (space : Space w) (earlier : ItemsBefore d front) :
    ItemsBefore d (text ++ ',' :: (w ++ front)) := by
  cases earlier with
  | none =>
    rw [List.append_nil]
    exact .some (.one item) (by simpa using within) space
  | @some ts items v written all spaceAfter =>
    have more := ItemsText.more item (written.after_space space)
    have each := List.forall_mem_cons.mpr ⟨within, all⟩
    simpa using ItemsBefore.some more each spaceAfter

theorem MembersBefore.cons {d : Nat} {m : List Piece × Tree} {text w front : List Char}
    (member : MemberText m text) (within : m.2.Within d) (space : Space w)
    (earlier : MembersBefore d front) : MembersBefore d (text ++ ',' :: (w ++ front)) := by
  cases earlier with
  | none =>
    rw [List.append_nil]
    exact .some (.one member) (by simpa using within) space
  | @some ms members v written all spaceAfter =>
    have more := MembersText.more member (written.after_space space)
    have each : ∀ n ∈ m :: _, n.2.Within d := List.forall_mem_cons.mpr ⟨within, all⟩
    simpa using MembersBefore.some more each spaceAfter

section Containers

variable {item : Reader Value} {d : Nat}
  (stuck : ∀ {text refusal}, item text = .error refusal → StuckIn d text refusal)
include stuck

theorem member_stuck {text : List Char} {refusal : Refusal}
    (refused : member item text = .error refusal) :
    MemberStuck text refusal ∨
      ∃ name nameText u v rest, StringText name nameText ∧ Space u ∧ Space v ∧
        text = nameText ++ (u ++ ':' :: (v ++ rest)) ∧ StuckIn d rest refusal := by
  unfold member at refused
  split at refused
  · split at refused
    · rename_i failed
      cases refused
      exact .inl (.name failed)
    · rename_i text s behind takenName
      obtain ⟨body, name, rfl, pieces, _⟩ := stringBody_sound takenName
      obtain ⟨u, space, atBehind⟩ := skipSpace_split behind
      have named := StringText.quoted pieces
      split at refused
      · rename_i after colon
        rw [colon] at atBehind
        obtain ⟨v, spaceAfter, atAfter⟩ := skipSpace_split after
        split at refused
        · cases refused
        · rename_i failed
          cases refused
          exact .inr ⟨name, _, u, v, _, named, space, spaceAfter, by simp [atBehind, ← atAfter],
            stuck failed⟩
      · cases refused
        have noColon : MemberStuck (_ ++ (u ++ skipSpace behind)) _ := .noColon named space
        rw [← atBehind] at noColon
        exact .inl (by simpa using noColon)
  · cases refused
    exact .inl .noName

variable (exact : Takes item (Derives d))
include exact

/-- The items of an array end at one of them, or behind one that no comma follows. -/
theorem elements_stuck {bound : Nat} {text : List Char} {refusal : Refusal}
    (refused : elements item bound text = .error refusal) :
    (∃ front rest, ItemsBefore d front ∧ text = front ++ rest ∧ StuckIn d rest refusal) ∨
      ∃ ts items rest, ItemsText ts items ∧ text = items ++ rest ∧ refusal = .malformed .comma rest := by
  induction bound generalizing text with
  | zero =>
    cases refused
    exact .inl ⟨[], text, .none, rfl, Stuck.noValue.stuckIn⟩
  | succ bound ih =>
    unfold elements at refused
    split at refused
    · rename_i failed
      cases refused
      exact .inl ⟨[], text, .none, rfl, stuck failed⟩
    · rename_i v behind taken
      obtain ⟨inner, rfl, t, written, within, _⟩ := exact.sound taken
      obtain ⟨w, space, atBehind⟩ := skipSpace_split behind
      have padded : PaddedText t (inner ++ w) := written.padded.before_space space
      split at refused
      · cases refused
      · rename_i after separated
        rw [separated] at atBehind
        obtain ⟨u, spaceAfter, atAfter⟩ := skipSpace_split after
        split at refused
        · cases refused
        · rename_i failed
          cases refused
          rcases ih failed with ⟨front, rest, earlier, atStart, place⟩ | ⟨ts, items, rest, more, atStart, rfl⟩
          · rw [atStart] at atAfter
            exact .inl ⟨_, rest, .cons padded within spaceAfter earlier, by simp [atBehind, atAfter], place⟩
          · rw [atStart] at atAfter
            exact .inr ⟨t :: ts, _, rest, .more padded (more.after_space spaceAfter),
              by simp [atBehind, atAfter], rfl⟩
      · cases refused
        exact .inr ⟨[t], inner ++ w, _, .one padded, by rw [List.append_assoc, ← atBehind], rfl⟩

theorem array_stuck {text : List Char} {refusal : Refusal}
    (refused : array item text = .error refusal) : StuckIn (d + 1) ('[' :: text) refusal := by
  obtain ⟨w, space, atText⟩ := skipSpace_split text
  unfold array at refused
  split at refused
  · cases refused
  · split at refused
    · cases refused
    · rename_i failed
      cases refused
      rcases elements_stuck stuck exact failed with
        ⟨front, rest, earlier, atStart, e, before, behind, place, frame, rfl, ends⟩ |
        ⟨ts, items, rest, written, atStart, rfl⟩
      · rw [atStart] at atText
        exact ⟨e, _, _, place, .item space earlier frame, by simp [atText], ends⟩
      · rw [atStart] at atText
        rw [atText]
        exact (Stuck.afterItem space written).stuckIn

/-- The members of an object end at one of them, or behind one that no comma follows. -/
theorem members_stuck {bound : Nat} {text : List Char} {refusal : Refusal}
    (refused : members item bound text = .error refusal) :
    (∃ front rest, MembersBefore d front ∧ text = front ++ rest ∧
      (MemberStuck rest refusal ∨
        ∃ name nameText u v inner, StringText name nameText ∧ Space u ∧ Space v ∧
          rest = nameText ++ (u ++ ':' :: (v ++ inner)) ∧ StuckIn d inner refusal)) ∨
      ∃ ms members rest, MembersText ms members ∧ text = members ++ rest ∧
        refusal = .malformed .comma rest := by
  induction bound generalizing text with
  | zero =>
    cases refused
    exact .inl ⟨[], text, .none, rfl, .inl .noName⟩
  | succ bound ih =>
    unfold members at refused
    split at refused
    · rename_i failed
      cases refused
      exact .inl ⟨[], text, .none, rfl, member_stuck stuck failed⟩
    · rename_i entry behind taken
      obtain ⟨inner, name, t, rfl, written, within, _, _⟩ := member_sound exact taken
      obtain ⟨w, space, atBehind⟩ := skipSpace_split behind
      have spaced : MemberText (name, t) (inner ++ w) := written.before_space space
      split at refused
      · cases refused
      · rename_i after separated
        rw [separated] at atBehind
        obtain ⟨u, spaceAfter, atAfter⟩ := skipSpace_split after
        split at refused
        · cases refused
        · rename_i failed
          cases refused
          rcases ih failed with ⟨front, rest, earlier, atStart, place⟩ | ⟨ms, others, rest, more, atStart, rfl⟩
          · rw [atStart] at atAfter
            exact .inl ⟨_, rest, .cons spaced within spaceAfter earlier, by simp [atBehind, atAfter], place⟩
          · rw [atStart] at atAfter
            exact .inr ⟨(name, t) :: ms, _, rest, .more spaced (more.after_space spaceAfter),
              by simp [atBehind, atAfter], rfl⟩
      · cases refused
        exact .inr ⟨[(name, t)], inner ++ w, _, .one spaced, by rw [List.append_assoc, ← atBehind], rfl⟩

theorem object_stuck {text : List Char} {refusal : Refusal}
    (refused : object item text = .error refusal) : StuckIn (d + 1) ('\x7b' :: text) refusal := by
  obtain ⟨w, space, atText⟩ := skipSpace_split text
  unfold object at refused
  split at refused
  · cases refused
  · split at refused
    · cases refused
    · rename_i failed
      cases refused
      rcases members_stuck stuck exact failed with
        ⟨front, rest, earlier, atStart, ends | ⟨name, nameText, u, v, inner, named, spaceName, spaceValue,
          rfl, e, before, behind, place, frame, rfl, ends⟩⟩ |
        ⟨ms, others, rest, written, atStart, rfl⟩
      · rw [atStart] at atText
        rw [atText]
        exact (Stuck.atMember space earlier ends).stuckIn
      · rw [atStart] at atText
        exact ⟨e, _, _, place, .member space earlier named spaceName spaceValue frame,
          by simp [atText], ends⟩
      · rw [atStart] at atText
        rw [atText]
        exact (Stuck.afterMember space written).stuckIn

end Containers

theorem valueWith_stuck {nested : Option (Reader Value)} {d : Nat} (reaches : Reaches nested d)
    (inner : ∀ item ∈ nested, ∀ {text refusal}, item text = .error refusal →
      StuckIn (d - 1) text refusal)
    {text : List Char} {refusal : Refusal} (refused : valueWith false nested text = .error refusal) :
    StuckIn d text refusal := by
  unfold valueWith at refused
  split at refused
  · split at refused
    · cases refused
    · rename_i failed
      cases refused
      exact (Stuck.string failed).stuckIn
  · cases reaches with
    | flat =>
      cases refused
      exact Stuck.tooDeep.stuckIn
    | nested exact => exact array_stuck (inner _ rfl) exact refused
  · cases reaches with
    | flat =>
      cases refused
      exact Stuck.tooDeep.stuckIn
    | nested exact => exact object_stuck (inner _ rfl) exact refused
  · exact (plain_stuck refused).stuckIn

/-- A refused value stands in a frame, whatever the reason. -/
theorem value_stuck (d : Nat) {text : List Char} {refusal : Refusal}
    (refused : value false d text = .error refusal) : StuckIn d text refusal := by
  induction d generalizing text refusal with
  | zero => exact valueWith_stuck .flat nofun refused
  | succ d ih =>
    refine valueWith_stuck (.nested (value_takes d)) (fun item among => ?_) refused
    cases among
    exact ih

/-- A text is refused for its mark, at a place in its value, or for what stands behind the value. -/
theorem decode_stuck {d : Nat} {text : List Char} {refusal : Refusal}
    (refused : decode ⟨d, false⟩ text = .error refusal) :
    refusal = .malformed .byteOrderMark text ∨
      (∃ w inner, Space w ∧ text = w ++ inner ∧ StuckIn d inner refusal) ∨
      ∃ t before rest, PaddedText t before ∧ text = before ++ rest ∧
        refusal = .malformed .extraData rest := by
  obtain ⟨w, space, atText⟩ := skipSpace_split text
  unfold decode at refused
  split at refused
  · cases refused
    exact .inl rfl
  · split at refused
    · rename_i failed
      cases refused
      exact .inr (.inl ⟨w, _, space, atText, value_stuck d failed⟩)
    · rename_i v behind taken
      obtain ⟨inner, atStart, t, written, _, _⟩ := (value_takes d).sound taken
      obtain ⟨u, spaceBehind, atBehind⟩ := skipSpace_split behind
      split at refused
      · cases refused
      · cases refused
        refine .inr (.inr ⟨t, w ++ (inner ++ u), _, .padded space written spaceBehind, ?_, rfl⟩)
        rw [List.append_assoc, List.append_assoc, ← atBehind, ← atStart, ← atText]

end PayloadCheck.Json
