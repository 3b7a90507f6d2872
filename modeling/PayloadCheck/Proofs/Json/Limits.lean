import PayloadCheck.Proofs.Json.Reading

namespace PayloadCheck.Json

/-- A refusal that is no fault of the text. -/
def Refusal.IsLimit : Refusal → Prop
  | .tooManyDigits _ => True
  | .tooDeep _ => True
  | _ => False

/-- Reading comes to a rest of the text, or to a limit on the way. -/
def ComesTo {α : Type} (rest : List Char) (read : Except Refusal (α × List Char)) : Prop :=
  (∃ a, read = .ok (a, rest)) ∨ ∃ refusal, read = .error refusal ∧ refusal.IsLimit

theorem ComesTo.here {α : Type} {rest : List Char} {a : α} : ComesTo rest (.ok (a, rest)) :=
  .inl ⟨a, rfl⟩

theorem ComesTo.limit {α : Type} {rest : List Char} {refusal : Refusal} (isLimit : refusal.IsLimit) :
    ComesTo (α := α) rest (.error refusal) :=
  .inr ⟨refusal, rfl, isLimit⟩

/-- A reader comes to what stands behind any value. -/
structure Reader.Passes (item : Reader Value) : Prop where
  comes {t : Tree} {inner rest : List Char} :
    TreeText t inner → Delimited rest → ComesTo rest (item (inner ++ rest))

theorem number_comes {n : Numeral} {text rest : List Char} (written : NumberText n text)
    (delimited : Delimited rest) : ComesTo rest (number (text ++ rest)) := by
  simp only [number, numeral?_complete written delimited]
  by_cases integer : n.IsInteger
  · by_cases long : Number.digitLimit < n.whole.length
    · simp only [Numeral.value_of_integer integer, long, if_true]
      exact .limit trivial
    · simp only [Numeral.value_of_integer integer, long, if_false]
      exact .here
  · simp only [Numeral.value_of_not_integer integer]
    exact .here

section Containers

variable {item : Reader Value} (passes : item.Passes)
include passes

theorem elements_comes {ts : List Tree} {body : List Char} (written : ItemsText ts body)
    (rest : List Char) {bound : Nat} (enough : (skipSpace (body ++ ']' :: rest)).length ≤ bound) :
    ComesTo rest (elements item bound (skipSpace (body ++ ']' :: rest))) := by
  -- The grammar is mutual, so the induction is on the trees.
  induction ts generalizing body bound with
  | nil => exact nomatch written
  | cons t ts ih =>
    cases written with
    | one padded =>
      obtain ⟨inner, after, value, delimited, closed, start, shorter⟩ :=
        padded.stands (.inr (.inl rfl)) rest
      rw [start] at enough ⊢
      obtain ⟨bound, rfl⟩ := Nat.exists_eq_add_of_lt (Nat.lt_of_lt_of_le shorter enough)
      rcases passes.comes value delimited with ⟨v, taken⟩ | ⟨refusal, refused, isLimit⟩
      · simp only [elements, taken, closed]
        exact .here
      · simp only [elements, refused]
        exact .limit isLimit
    | @more _ _ text body padded items =>
      rw [List.append_assoc, List.cons_append] at enough ⊢
      obtain ⟨inner, after, value, delimited, separated, start, shorter⟩ :=
        padded.stands (.inl rfl) (body ++ ']' :: rest)
      rw [start] at enough ⊢
      obtain ⟨less, rfl⟩ := Nat.exists_eq_add_of_lt (Nat.lt_of_lt_of_le shorter enough)
      have further : (skipSpace (body ++ ']' :: rest)).length ≤ (body ++ ']' :: rest).length + less := by
        have := skipSpace_length_le (body ++ ']' :: rest)
        omega
      rcases passes.comes value delimited with ⟨v, taken⟩ | ⟨refusal, refused, isLimit⟩
      · rcases ih items further with ⟨vs, others⟩ | ⟨refusal, refused, isLimit⟩
        · simp only [elements, taken, separated, others]
          exact .here
        · simp only [elements, taken, separated, refused]
          exact .limit isLimit
      · simp only [elements, refused]
        exact .limit isLimit

theorem array_comes {ts : List Tree} {inner : List Char} (written : TreeText (.array ts) ('[' :: inner))
    (rest : List Char) : ComesTo rest (array item (inner ++ rest)) := by
  cases written with
  | emptyArray space =>
    rw [array, List.append_assoc, skipSpace_append space]
    exact .here
  | @array _ body items =>
    obtain ⟨c, more, start, starts⟩ := items.head (']' :: rest)
    have comes := elements_comes passes items rest (Nat.le_refl _)
    rw [start] at comes
    rw [array, List.append_assoc, List.singleton_append, start]
    split
    · rename_i same
      cases same
      exact absurd starts (by decide)
    · rcases comes with ⟨vs, taken⟩ | ⟨refusal, refused, isLimit⟩
      · rw [taken]
        exact .here
      · rw [refused]
        exact .limit isLimit

/-- A member in an object, up to the character that the object goes on with. -/
theorem member_comes {m : List Piece × Tree} {text : List Char} (written : MemberText m text) {c : Char}
    (closer : IsCloser c) (rest : List Char) :
    rest.length < (skipSpace (text ++ c :: rest)).length ∧
      ∃ after, skipSpace after = c :: rest ∧
        ComesTo after (member item (skipSpace (text ++ c :: rest))) := by
  obtain ⟨body, afterName, valueText, start, named, colon, value, longer⟩ := written.stands (c :: rest)
  have read := named (String.ofList (spell m.1)) (by simpa using spells_spell m.1)
  obtain ⟨inner, after, tree, delimited, closed, first, _⟩ := value.stands closer rest
  rw [start]
  refine ⟨?_, after, closed, ?_⟩
  · simp only [List.length_append, List.length_cons] at longer ⊢
    omega
  · rcases passes.comes tree delimited with ⟨v, taken⟩ | ⟨refusal, refused, isLimit⟩
    · simp only [member, read, colon, first, taken]
      exact .here
    · simp only [member, read, colon, first, refused]
      exact .limit isLimit

theorem members_comes {ms : List (List Piece × Tree)} {body : List Char} (written : MembersText ms body)
    (rest : List Char) {bound : Nat} (enough : (skipSpace (body ++ '\x7d' :: rest)).length ≤ bound) :
    ComesTo rest (members item bound (skipSpace (body ++ '\x7d' :: rest))) := by
  induction ms generalizing body bound with
  | nil => exact nomatch written
  | cons m ms ih =>
    cases written with
    | one pair =>
      obtain ⟨shorter, after, closed, comes⟩ := member_comes passes pair (.inr (.inr rfl)) rest
      obtain ⟨bound, rfl⟩ := Nat.exists_eq_add_of_lt (Nat.lt_of_lt_of_le shorter enough)
      rcases comes with ⟨entry, taken⟩ | ⟨refusal, refused, isLimit⟩
      · simp only [members, taken, closed]
        exact .here
      · simp only [members, refused]
        exact .limit isLimit
    | @more _ _ text body pair items =>
      rw [List.append_assoc, List.cons_append] at enough ⊢
      obtain ⟨shorter, after, separated, comes⟩ :=
        member_comes passes pair (.inl rfl) (body ++ '\x7d' :: rest)
      obtain ⟨less, rfl⟩ := Nat.exists_eq_add_of_lt (Nat.lt_of_lt_of_le shorter enough)
      have further : (skipSpace (body ++ '\x7d' :: rest)).length ≤
          (body ++ '\x7d' :: rest).length + less := by
        have := skipSpace_length_le (body ++ '\x7d' :: rest)
        omega
      rcases comes with ⟨entry, taken⟩ | ⟨refusal, refused, isLimit⟩
      · rcases ih items further with ⟨entries, others⟩ | ⟨refusal, refused, isLimit⟩
        · simp only [members, taken, separated, others]
          exact .here
        · simp only [members, taken, separated, refused]
          exact .limit isLimit
      · simp only [members, refused]
        exact .limit isLimit

theorem object_comes {ms : List (List Piece × Tree)} {inner : List Char}
    (written : TreeText (.object ms) ('\x7b' :: inner)) (rest : List Char) :
    ComesTo rest (object item (inner ++ rest)) := by
  cases written with
  | emptyObject space =>
    rw [object, List.append_assoc, skipSpace_append space]
    exact .here
  | @object _ body items =>
    obtain ⟨more, start⟩ := items.head ('\x7d' :: rest)
    have comes := members_comes passes items rest (Nat.le_refl _)
    rw [start] at comes
    rw [object, List.append_assoc, List.singleton_append, start]
    split
    · rename_i same
      cases same
    · rcases comes with ⟨entries, taken⟩ | ⟨refusal, refused, isLimit⟩
      · rw [taken]
        exact .here
      · rw [refused]
        exact .limit isLimit

end Containers

theorem valueWith_passes {nested : Option (Reader Value)} (passes : ∀ item ∈ nested, Reader.Passes item) :
    Reader.Passes (valueWith false nested) := by
  refine ⟨fun {t inner rest} written delimited => ?_⟩
  cases t with
  | null =>
    cases written
    exact .here
  | bool b => cases written <;> exact .here
  | number n =>
    cases written with
    | number number =>
      rw [valueWith_number number, plain_number number]
      exact number_comes number delimited
  | string ps =>
    cases written with
    | string string =>
      cases string with
      | quoted pieces =>
        have spelled : Spells ps (String.ofList (spell ps)).toList := by simpa using spells_spell ps
        simp only [List.cons_append, List.append_assoc, List.nil_append, valueWith,
          stringBody_complete pieces spelled]
        exact .here
  | array ts =>
    obtain ⟨body, rfl⟩ := array_head written
    cases nested with
    | none => exact .limit trivial
    | some item => exact array_comes (passes item rfl) written rest
  | object ms =>
    obtain ⟨body, rfl⟩ := object_head written
    cases nested with
    | none => exact .limit trivial
    | some item => exact object_comes (passes item rfl) written rest

theorem value_passes (d : Nat) : Reader.Passes (value false d) := by
  induction d with
  | zero => exact valueWith_passes nofun
  | succ d ih =>
    refine valueWith_passes fun item among => ?_
    cases among
    exact ih

/-- A text of JSON is read, or refused for one of the limits. -/
theorem decode_of_json {d : Nat} {t : Tree} {text : List Char} (written : PaddedText t text) :
    (∃ v, decode ⟨d, false⟩ text = .ok v) ∨
      ∃ refusal, decode ⟨d, false⟩ text = .error refusal ∧ refusal.IsLimit := by
  rw [decode_of_no_mark written.no_mark]
  cases written with
  | @padded _ before inner behind space value spaceBehind =>
    have delimited : Delimited behind := by simpa using spaceBehind.delimited delimited_nil
    have ended : skipSpace behind = [] := by
      simpa [skipSpace] using skipSpace_append spaceBehind []
    rw [skipSpace_append space, value.skipSpace_append]
    rcases (value_passes d).comes value delimited with ⟨v, taken⟩ | ⟨refusal, refused, isLimit⟩
    · exact .inl ⟨v, by simp only [taken, ended]⟩
    · exact .inr ⟨refusal, by simp only [refused], isLimit⟩

end PayloadCheck.Json
