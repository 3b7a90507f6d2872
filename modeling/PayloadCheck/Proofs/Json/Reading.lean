import PayloadCheck.Proofs.Json.Lexeme

namespace PayloadCheck.Json

open Number

theorem TreeText.padded {t : Tree} {text : List Char} (written : TreeText t text) :
    PaddedText t text := by
  simpa using PaddedText.padded space_nil written space_nil

theorem PaddedText.after_space {t : Tree} {w text : List Char} (space : Space w)
    (written : PaddedText t text) : PaddedText t (w ++ text) := by
  cases written with
  | padded before inner behind =>
    rw [← List.append_assoc]
    exact .padded (space.append before) inner behind

theorem PaddedText.before_space {t : Tree} {w text : List Char} (written : PaddedText t text)
    (space : Space w) : PaddedText t (text ++ w) := by
  cases written with
  | padded before inner behind =>
    simp only [List.append_assoc]
    exact .padded before inner (behind.append space)

theorem ItemsText.after_space {ts : List Tree} {w text : List Char} (space : Space w)
    (written : ItemsText ts text) : ItemsText ts (w ++ text) := by
  cases written with
  | one item => exact .one (item.after_space space)
  | more item others =>
    rw [← List.append_assoc]
    exact .more (item.after_space space) others

theorem MemberText.after_space {m : List Piece × Tree} {w text : List Char} (space : Space w)
    (written : MemberText m text) : MemberText m (w ++ text) := by
  cases written with
  | pair before name behind value =>
    rw [← List.append_assoc]
    exact .pair (space.append before) name behind value

theorem MemberText.before_space {m : List Piece × Tree} {w text : List Char}
    (written : MemberText m text) (space : Space w) : MemberText m (text ++ w) := by
  cases written with
  | pair before name behind value =>
    simp only [List.append_assoc, List.cons_append]
    exact .pair before name behind (value.before_space space)

theorem MembersText.after_space {ms : List (List Piece × Tree)} {w text : List Char}
    (space : Space w) (written : MembersText ms text) : MembersText ms (w ++ text) := by
  cases written with
  | one member => exact .one (member.after_space space)
  | more member others =>
    rw [← List.append_assoc]
    exact .more (member.after_space space) others

def starters : List Char :=
  ['n', 't', 'f', '"', '[', '\x7b', '-', '0', '1', '2', '3', '4', '5', '6', '7', '8', '9']

theorem digit_starts {c : Char} (digit : '0' ≤ c ∧ c ≤ '9') : c ∈ starters := by
  obtain ⟨k, low, high, rfl⟩ := eq_ofNat_of_between digit.1 digit.2
  change 48 ≤ k at low
  change k ≤ 57 at high
  interval_cases k <;> decide

theorem NumberText.head {n : Numeral} {text : List Char} (written : NumberText n text) :
    ∃ c more, text = c :: more ∧
      (c = '-' ∧ (∃ d rest, more = d :: rest ∧ '0' ≤ d ∧ d ≤ '9') ∨ '0' ≤ c ∧ c ≤ '9') := by
  cases written with
  | @parts negative whole fractionText exponentText _ _ isWhole _ _ =>
    obtain ⟨c, more, rfl, digit⟩ := isWhole.head
    cases negative with
    | true => exact ⟨_, _, rfl, .inl ⟨rfl, c, _, rfl, digit⟩⟩
    | false => exact ⟨_, _, rfl, .inr digit⟩

theorem TreeText.head {t : Tree} {text : List Char} (written : TreeText t text) :
    ∃ c more, text = c :: more ∧ c ∈ starters := by
  cases written with
  | null => exact ⟨_, _, rfl, by decide⟩
  | true => exact ⟨_, _, rfl, by decide⟩
  | false => exact ⟨_, _, rfl, by decide⟩
  | number number =>
    obtain ⟨c, more, rfl, ⟨rfl, _⟩ | digit⟩ := number.head
    · exact ⟨_, _, rfl, by decide⟩
    · exact ⟨_, _, rfl, digit_starts digit⟩
  | string string =>
    cases string
    exact ⟨_, _, rfl, by decide⟩
  | emptyArray => exact ⟨_, _, rfl, by decide⟩
  | array => exact ⟨_, _, rfl, by decide⟩
  | emptyObject => exact ⟨_, _, rfl, by decide⟩
  | object => exact ⟨_, _, rfl, by decide⟩

theorem starters_visible {c : Char} (starts : c ∈ starters) : isSpace c = false := by
  have all : starters.all (!isSpace ·) = true := by decide
  simpa using List.all_eq_true.mp all c starts

theorem skipSpace_cons {c : Char} (visible : isSpace c = false) (rest : List Char) :
    skipSpace (c :: rest) = c :: rest := by
  refine skipSpace_of_head fun first is_first => ?_
  cases is_first
  exact visible

theorem TreeText.skipSpace_append {t : Tree} {text : List Char} (written : TreeText t text)
    (rest : List Char) : skipSpace (text ++ rest) = text ++ rest := by
  obtain ⟨c, more, rfl, starts⟩ := written.head
  exact skipSpace_cons (starters_visible starts) _

theorem PaddedText.head {t : Tree} {text : List Char} (written : PaddedText t text)
    (rest : List Char) : ∃ c more, skipSpace (text ++ rest) = c :: more ∧ c ∈ starters := by
  cases written with
  | @padded t before inner after space value _ =>
    obtain ⟨c, more, rfl, starts⟩ := value.head
    refine ⟨c, more ++ after ++ rest, ?_, starts⟩
    simp only [List.append_assoc, List.cons_append]
    rw [skipSpace_append space, skipSpace_cons (starters_visible starts)]

theorem ItemsText.head {ts : List Tree} {text : List Char} (written : ItemsText ts text)
    (rest : List Char) : ∃ c more, skipSpace (text ++ rest) = c :: more ∧ c ∈ starters := by
  cases written with
  | one item => exact item.head rest
  | @more _ _ text others item _ =>
    rw [List.append_assoc]
    exact item.head (',' :: others ++ rest)

theorem MembersText.head {ms : List (List Piece × Tree)} {text : List Char}
    (written : MembersText ms text) (rest : List Char) :
    ∃ more, skipSpace (text ++ rest) = '"' :: more := by
  have first : ∀ {m : List Piece × Tree} {text : List Char}, MemberText m text →
      ∀ rest, ∃ more, skipSpace (text ++ rest) = '"' :: more := by
    intro m text member rest
    cases member with
    | @pair _ _ before _ behind text space name _ _ =>
      cases name with
      | @quoted body _ =>
        refine ⟨body ++ ['"'] ++ (behind ++ ':' :: text) ++ rest, ?_⟩
        simp only [List.append_assoc, List.cons_append]
        rw [skipSpace_append space, skipSpace_cons (by decide)]
  cases written with
  | one member => exact first member rest
  | @more _ _ text others member _ =>
    rw [List.append_assoc]
    exact first member (',' :: others ++ rest)

/-- The characters that close a value inside a container. -/
def IsCloser (c : Char) : Prop := c = ',' ∨ c = ']' ∨ c = '\x7d'

theorem IsCloser.visible {c : Char} (closer : IsCloser c) : isSpace c = false := by
  rcases closer with rfl | rfl | rfl <;> decide

theorem Space.delimited {w : List Char} (space : Space w) {rest : List Char}
    (delimited : Delimited rest) : Delimited (w ++ rest) := by
  cases w with
  | nil => exact delimited
  | cons c more =>
    intro first is_first
    cases is_first
    exact .inl (isSpace_iff.mpr (space c List.mem_cons_self))

theorem IsCloser.delimited {c : Char} (closer : IsCloser c) (rest : List Char) :
    Delimited (c :: rest) := by
  intro first is_first
  cases is_first
  exact .inr closer

theorem delimited_nil : Delimited [] := fun _ none => nomatch none

theorem distinct_append {α : Type} (entries : List (String × α)) (entry : String × α) :
    distinct (entries ++ [entry]) = assign entry.1 entry.2 (distinct entries) := by
  simp [distinct]

theorem names_assign {α : Type} (name : String) (value : α) (entries : List (String × α)) :
    (assign name value entries).map (·.1) =
      if name ∈ entries.map (·.1) then entries.map (·.1) else entries.map (·.1) ++ [name] := by
  by_cases known : name ∈ entries.map (·.1)
  · rw [if_pos known]
    induction entries with
    | nil => exact nomatch known
    | cons entry rest ih =>
      obtain ⟨key, old⟩ := entry
      by_cases same : key = name
      · simp [assign, same]
      · have later : name ∈ rest.map (·.1) := (List.mem_cons.mp known).resolve_left (Ne.symm same)
        simp only [assign, same, if_false, List.map_cons, ih later]
  · rw [if_neg known]
    have new : lookup? name entries = none :=
      lookup?_eq_none.mpr fun entry among same => known (List.mem_map.mpr ⟨entry, among, same⟩)
    rw [assign_of_lookup?_none value new, List.map_append]
    rfl

theorem names_distinct {α : Type} (entries : List (String × α)) :
    (distinct entries).map (·.1) = (entries.map (·.1)).eraseDups := by
  induction entries using List.reverseRecOn with
  | nil => rfl
  | append_singleton entries entry ih =>
    rw [distinct_append, names_assign, ih, List.map_append, List.eraseDups_append]
    by_cases known : entry.1 ∈ entries.map (·.1)
    · rw [if_pos (List.mem_eraseDups.mpr known)]
      simp [List.removeAll, List.mem_map.mp known]
    · rw [if_neg (mt List.mem_eraseDups.mp known)]
      simp [List.removeAll, known, List.eraseDups_cons]

theorem nodup_names_distinct {α : Type} (entries : List (String × α)) :
    ((distinct entries).map (·.1)).Nodup := by
  induction entries using List.reverseRecOn with
  | nil => exact .nil
  | append_singleton entries entry ih =>
    rw [distinct_append, names_assign]
    split
    · exact ih
    · rename_i new
      refine List.nodup_append.mpr ⟨ih, by simp, fun name among other last same => new ?_⟩
      rw [← List.mem_singleton.mp last, ← same]
      exact among

theorem lookup?_distinct {α : Type} (name : String) (entries : List (String × α)) :
    lookup? name (distinct entries) = lookup? name entries.reverse := by
  induction entries using List.reverseRecOn with
  | nil => rfl
  | append_singleton entries entry ih =>
    rw [distinct_append, lookup?_assign, ih, List.reverse_concat, lookup?]

theorem keeps_distinct (entries : List (String × Value)) : Keeps entries (distinct entries) where
  names := names_distinct entries
  values entry among := by
    rw [← lookup?_distinct]
    exact lookup?_of_mem (nodup_names_distinct entries) among

/-- Entries are known by their names and what belongs to each. -/
theorem eq_of_names {α : Type} {one other : List (String × α)} (value? : String → Option α)
    (names : one.map (·.1) = other.map (·.1)) (ofOne : ∀ entry ∈ one, value? entry.1 = some entry.2)
    (ofOther : ∀ entry ∈ other, value? entry.1 = some entry.2) : one = other := by
  induction one generalizing other with
  | nil => exact (List.map_eq_nil_iff.mp names.symm).symm
  | cons first rest ih =>
    cases other with
    | nil => exact nomatch names
    | cons second more =>
      obtain ⟨sameName, sameNames⟩ := List.cons.inj names
      have atFirst := ofOne first List.mem_cons_self
      have atSecond := ofOther second List.mem_cons_self
      have sameValue : first.2 = second.2 :=
        Option.some.inj (by rw [← atFirst, ← atSecond]; exact congrArg value? sameName)
      have others := ih sameNames (fun e among => ofOne e (List.mem_cons_of_mem _ among))
        fun e among => ofOther e (List.mem_cons_of_mem _ among)
      rw [others, Prod.ext sameName sameValue]

theorem Keeps.eq_distinct {entries kept : List (String × Value)} (keeps : Keeps entries kept) :
    kept = distinct entries :=
  eq_of_names (lookup? · entries.reverse)
    (keeps.names.trans (names_distinct entries).symm) keeps.values (keeps_distinct entries).values

/-- A tree lies within the limits. -/
structure Tree.Within (d : Nat) (t : Tree) : Prop where
  depth : t.depth ≤ d
  integers : t.IntegersFit

theorem Tree.within_array {ts : List Tree} {d : Nat} :
    (Tree.array ts).Within (d + 1) ↔ ∀ t ∈ ts, t.Within d := by
  have depth : (Tree.array ts).depth ≤ d + 1 ↔ ∀ t ∈ ts, t.depth ≤ d := by
    rw [← Tree.depthOfItems_le, Tree.depth]
    omega
  constructor
  · exact fun within t among =>
      ⟨depth.mp within.depth t among, Tree.integersFit_array.mp within.integers t among⟩
  · exact fun within => ⟨depth.mpr fun t among => (within t among).depth,
      Tree.integersFit_array.mpr fun t among => (within t among).integers⟩

theorem Tree.within_object {ms : List (List Piece × Tree)} {d : Nat} :
    (Tree.object ms).Within (d + 1) ↔ ∀ m ∈ ms, m.2.Within d := by
  have depth : (Tree.object ms).depth ≤ d + 1 ↔ ∀ m ∈ ms, m.2.depth ≤ d := by
    rw [← Tree.depthOfMembers_le, Tree.depth]
    omega
  constructor
  · exact fun within m among =>
      ⟨depth.mp within.depth m among, Tree.integersFit_object.mp within.integers m among⟩
  · exact fun within => ⟨depth.mpr fun m among => (within m among).depth,
      Tree.integersFit_object.mpr fun m among => (within m among).integers⟩

/-- A text writes a tree within the limits that stands for the value. -/
def Derives (d : Nat) (text : List Char) (v : Value) : Prop :=
  ∃ t, TreeText t text ∧ t.Within d ∧ Denotes t v

/-- A reader takes the texts of its values off the front, and nothing else. -/
structure Takes (reader : Reader Value) (Writes : List Char → Value → Prop) : Prop where
  sound {text rest : List Char} {v : Value} :
    reader text = .ok (v, rest) → ∃ inner, text = inner ++ rest ∧ Writes inner v
  complete {inner rest : List Char} {v : Value} :
    Writes inner v → Delimited rest → reader (inner ++ rest) = .ok (v, rest)

/-- The readers nested in one for a given depth. -/
inductive Reaches : Option (Reader Value) → Nat → Prop
  | flat : Reaches none 0
  | nested {item : Reader Value} {d : Nat} : Takes item (Derives d) → Reaches (some item) (d + 1)

theorem number_sound {text rest : List Char} {v : Value} {d : Nat}
    (read : number text = .ok (v, rest)) : ∃ inner, text = inner ++ rest ∧ Derives d inner v := by
  unfold number at read
  split at read
  · cases read
  · rename_i n behind taken
    obtain ⟨inner, split, written⟩ := numeral?_sound taken
    split at read
    · rename_i found value
      cases read
      obtain ⟨fits, denotes⟩ := written.value_eq_ok.mp value
      have integers : (Tree.number n).IntegersFit := by
        intro m among
        rw [Tree.numerals, List.mem_singleton] at among
        exact among ▸ fits
      exact ⟨inner, split, .number n, .number written, ⟨Nat.zero_le _, integers⟩, denotes⟩
    · cases read

theorem number_complete {n : Numeral} {text rest : List Char} {v : Value}
    (written : NumberText n text) (fits : (Tree.number n).IntegersFit)
    (denotes : Denotes (.number n) v) (delimited : Delimited rest) :
    number (text ++ rest) = .ok (v, rest) := by
  have few : n.IsInteger → n.whole.length ≤ digitLimit := fits n (List.mem_singleton_self n)
  have value : n.value = .ok v := written.value_eq_ok.mpr ⟨few, denotes⟩
  simp only [number, numeral?_complete written delimited, value]

theorem leaf_within {t : Tree} {d : Nat} (flat : t.depth = 0) (plain : t.numerals = []) :
    t.Within d := by
  refine ⟨by omega, fun n among => ?_⟩
  rw [plain] at among
  exact nomatch among

theorem plain_sound {text rest : List Char} {v : Value} {d : Nat}
    (read : plain false text = .ok (v, rest)) :
    ∃ inner, text = inner ++ rest ∧ Derives d inner v := by
  unfold plain at read
  split at read
  · cases read
    exact ⟨['n', 'u', 'l', 'l'], rfl, .null, .null, leaf_within rfl rfl, .null⟩
  · cases read
    exact ⟨['t', 'r', 'u', 'e'], rfl, .bool true, .true, leaf_within rfl rfl, .bool⟩
  · cases read
    exact ⟨['f', 'a', 'l', 's', 'e'], rfl, .bool false, .false, leaf_within rfl rfl, .bool⟩
  · exact nomatch read
  · exact nomatch read
  · exact nomatch read
  · exact number_sound read

theorem plain_number {n : Numeral} {text : List Char} (written : NumberText n text)
    (rest : List Char) : plain false (text ++ rest) = number (text ++ rest) := by
  obtain ⟨c, more, rfl, ⟨rfl, d, others, rfl, digit⟩ | digit⟩ := written.head
  · rw [plain]
    case x_6 =>
      intro behind same
      obtain rfl := (List.cons.inj (List.cons.inj same).2).1
      exact absurd digit (by decide)
    all_goals exact fun behind other => nomatch other
  · rw [plain]
    all_goals
      intro behind same
      obtain rfl := (List.cons.inj same).1
      exact absurd digit (by decide)

/-- A value in a container begins where the white space before it ends, and the white space behind it ends
where the container goes on. -/
theorem PaddedText.stands {t : Tree} {text : List Char} (written : PaddedText t text) {c : Char}
    (closer : IsCloser c) (rest : List Char) :
    ∃ inner after, TreeText t inner ∧ Delimited after ∧ skipSpace after = c :: rest ∧
      skipSpace (text ++ c :: rest) = inner ++ after ∧ rest.length < (inner ++ after).length := by
  cases written with
  | @padded _ before inner behind spaceBefore value spaceBehind =>
    refine ⟨inner, behind ++ c :: rest, value, spaceBehind.delimited (closer.delimited rest), ?_, ?_, ?_⟩
    · rw [skipSpace_append spaceBehind, skipSpace_cons closer.visible]
    · simp only [List.append_assoc]
      rw [skipSpace_append spaceBefore, value.skipSpace_append]
    · simp only [List.length_append, List.length_cons]
      omega

/-- A member of an object begins with the quotation mark of its name. Behind the name stands a colon, and
behind that the value. -/
theorem MemberText.stands {m : List Piece × Tree} {text : List Char} (written : MemberText m text)
    (rest : List Char) :
    ∃ body afterName valueText, skipSpace (text ++ rest) = '"' :: body ∧
      (∀ s : String, Spells m.1 s.toList → stringBody body = .ok (s, afterName)) ∧
      skipSpace afterName = ':' :: (valueText ++ rest) ∧ PaddedText m.2 valueText ∧
      (valueText ++ rest).length < body.length := by
  cases written with
  | @pair name t before _ between valueText spaceBefore nameText spaceBetween value =>
    cases nameText with
    | @quoted body pieces =>
      refine ⟨body ++ '"' :: (between ++ ':' :: (valueText ++ rest)),
        between ++ ':' :: (valueText ++ rest), valueText, ?_, ?_, ?_, value, ?_⟩
      · simp only [List.append_assoc, List.cons_append, List.nil_append]
        rw [skipSpace_append spaceBefore, skipSpace_cons (by decide)]
      · exact fun s spelled => stringBody_complete pieces spelled _
      · rw [skipSpace_append spaceBetween, skipSpace_cons (by decide)]
      · simp only [List.length_append, List.length_cons]
        omega

section Containers

variable {item : Reader Value} {d : Nat} (exact : Takes item (Derives d))
include exact

/-- The value at the front of a container, up to the character that closes it. -/
theorem PaddedText.taken {t : Tree} {text : List Char} {v : Value} (written : PaddedText t text)
    (within : t.Within d) (denotes : Denotes t v) {c : Char} (closer : IsCloser c)
    (rest : List Char) :
    rest.length < (skipSpace (text ++ c :: rest)).length ∧
      ∃ behind, item (skipSpace (text ++ c :: rest)) = .ok (v, behind) ∧
        skipSpace behind = c :: rest := by
  obtain ⟨inner, after, value, delimited, closed, start, shorter⟩ := written.stands closer rest
  rw [start]
  exact ⟨shorter, after, exact.complete ⟨t, value, within, denotes⟩ delimited, closed⟩

theorem elements_sound {bound : Nat} {text rest : List Char} {vs : List Value}
    (read : elements item bound text = .ok (vs, rest)) :
    ∃ body ts, text = body ++ ']' :: rest ∧ ItemsText ts body ∧ (∀ t ∈ ts, t.Within d) ∧
      DenoteAll ts vs := by
  -- White space behind an element is counted to it, and that behind a comma to the next one.
  induction bound generalizing text vs with
  | zero => exact nomatch read
  | succ bound ih =>
    unfold elements at read
    split at read
    · exact nomatch read
    · rename_i v behind taken
      obtain ⟨inner, rfl, t, written, within, denotes⟩ := exact.sound taken
      obtain ⟨w, space, atBehind⟩ := skipSpace_split behind
      have padded : PaddedText t (inner ++ w) := written.padded.before_space space
      split at read
      · rename_i after closed
        cases read
        rw [closed] at atBehind
        exact ⟨inner ++ w, [t], by simp [atBehind], .one padded, by simpa using within,
          .cons denotes .nil⟩
      · rename_i after separated
        rw [separated] at atBehind
        split at read
        · rename_i us final others
          cases read
          obtain ⟨body, ts, atAfter, items, allWithin, all⟩ := ih others
          obtain ⟨u, spaceAfter, split⟩ := skipSpace_split after
          rw [atAfter] at split
          refine ⟨inner ++ w ++ ',' :: (u ++ body), t :: ts, by simp [atBehind, split],
            .more padded (items.after_space spaceAfter), ?_, .cons denotes all⟩
          exact List.forall_mem_cons.mpr ⟨within, allWithin⟩
        · exact nomatch read
      · exact nomatch read

theorem elements_complete {ts : List Tree} {body : List Char} {vs : List Value}
    (written : ItemsText ts body) (within : ∀ t ∈ ts, t.Within d) (denotes : DenoteAll ts vs)
    (rest : List Char) {bound : Nat}
    (enough : (skipSpace (body ++ ']' :: rest)).length ≤ bound) :
    elements item bound (skipSpace (body ++ ']' :: rest)) = .ok (vs, rest) := by
  -- The grammar is mutual, so the induction is on the trees, and each derivation is taken apart.
  induction ts generalizing body vs bound with
  | nil => exact nomatch written
  | cons t ts ih =>
    obtain ⟨first, others⟩ := List.forall_mem_cons.mp within
    cases denotes with
    | @cons _ v _ vs means meansAll =>
      cases written with
      | one padded =>
        obtain ⟨shorter, behind, taken, closed⟩ := padded.taken exact first means (.inr (.inl rfl)) rest
        cases meansAll
        obtain ⟨bound, rfl⟩ := Nat.exists_eq_add_of_lt (Nat.lt_of_lt_of_le shorter enough)
        simp only [elements, taken, closed]
      | @more _ _ text body padded items =>
        rw [List.append_assoc, List.cons_append] at enough ⊢
        obtain ⟨shorter, behind, taken, separated⟩ :=
          padded.taken exact first means (.inl rfl) (body ++ ']' :: rest)
        obtain ⟨less, rfl⟩ := Nat.exists_eq_add_of_lt (Nat.lt_of_lt_of_le shorter enough)
        have further : (skipSpace (body ++ ']' :: rest)).length ≤
            (body ++ ']' :: rest).length + less := by
          have := skipSpace_length_le (body ++ ']' :: rest)
          omega
        simp only [elements, taken, separated, ih items others meansAll further]

theorem array_sound {text rest : List Char} {v : Value} (read : array item text = .ok (v, rest)) :
    ∃ inner, '[' :: text = inner ++ rest ∧ Derives (d + 1) inner v := by
  obtain ⟨w, space, atText⟩ := skipSpace_split text
  unfold array at read
  split at read
  · rename_i empty
    cases read
    rw [empty] at atText
    exact ⟨'[' :: (w ++ [']']), by simp [atText], .array [], .emptyArray space,
      Tree.within_array.mpr (List.forall_mem_nil _), .array .nil⟩
  · split at read
    · rename_i vs final taken
      cases read
      obtain ⟨body, ts, atStart, items, within, denotes⟩ := elements_sound exact taken
      rw [atStart] at atText
      exact ⟨'[' :: (w ++ body ++ [']']), by simp [atText], .array ts,
        .array (items.after_space space), Tree.within_array.mpr within, .array denotes⟩
    · exact nomatch read

theorem array_complete {ts : List Tree} {inner rest : List Char} {v : Value}
    (written : TreeText (.array ts) ('[' :: inner)) (within : (Tree.array ts).Within (d + 1))
    (denotes : Denotes (.array ts) v) : array item (inner ++ rest) = .ok (v, rest) := by
  cases denotes with
  | array means =>
    cases written with
    | emptyArray space =>
      cases means
      rw [array, List.append_assoc, skipSpace_append space]
      rfl
    | @array _ body items =>
      obtain ⟨c, more, start, starts⟩ := items.head (']' :: rest)
      have read := elements_complete exact items (Tree.within_array.mp within) means rest le_rfl
      rw [start] at read
      rw [array, List.append_assoc, List.singleton_append, start]
      split
      · rename_i same
        cases same
        exact absurd starts (by decide)
      · rw [read]

theorem member_sound {text rest : List Char} {entry : String × Value}
    (read : member item text = .ok (entry, rest)) :
    ∃ inner name t, text = inner ++ rest ∧ MemberText (name, t) inner ∧ t.Within d ∧
      Spells name entry.1.toList ∧ Denotes t entry.2 := by
  unfold member at read
  split at read
  · split at read
    · exact nomatch read
    · rename_i text s behind takenName
      obtain ⟨body, name, atText, pieces, spelled⟩ := stringBody_sound takenName
      obtain ⟨w, space, atBehind⟩ := skipSpace_split behind
      split at read
      · rename_i after colon
        rw [colon] at atBehind
        obtain ⟨u, spaceAfter, atAfter⟩ := skipSpace_split after
        split at read
        · rename_i v final taken
          cases read
          obtain ⟨inner, start, t, written, within, denotes⟩ := exact.sound taken
          rw [start] at atAfter
          refine ⟨[] ++ ('"' :: (body ++ ['"']) ++ (w ++ ':' :: (u ++ inner))), name, t, ?_,
            .pair space_nil (.quoted pieces) space (written.padded.after_space spaceAfter), within,
            spelled, denotes⟩
          simp [atText, atBehind, atAfter]
        · exact nomatch read
      · exact nomatch read
  · exact nomatch read

theorem members_sound {bound : Nat} {text rest : List Char} {entries : List (String × Value)}
    (read : members item bound text = .ok (entries, rest)) :
    ∃ body ms, text = body ++ '\x7d' :: rest ∧ MembersText ms body ∧ (∀ m ∈ ms, m.2.Within d) ∧
      DenoteEntries ms entries := by
  induction bound generalizing text entries with
  | zero => exact nomatch read
  | succ bound ih =>
    unfold members at read
    split at read
    · exact nomatch read
    · rename_i entry behind taken
      obtain ⟨inner, name, t, rfl, written, within, spelled, denotes⟩ := member_sound exact taken
      obtain ⟨w, space, atBehind⟩ := skipSpace_split behind
      have spaced : MemberText (name, t) (inner ++ w) := written.before_space space
      split at read
      · rename_i after closed
        cases read
        rw [closed] at atBehind
        exact ⟨inner ++ w, [(name, t)], by simp [atBehind], .one spaced, by simpa using within,
          .cons spelled denotes .nil⟩
      · rename_i after separated
        rw [separated] at atBehind
        split at read
        · rename_i others final takenOthers
          cases read
          obtain ⟨body, ms, atAfter, items, allWithin, all⟩ := ih takenOthers
          obtain ⟨u, spaceAfter, split⟩ := skipSpace_split after
          rw [atAfter] at split
          refine ⟨inner ++ w ++ ',' :: (u ++ body), (name, t) :: ms, by simp [atBehind, split],
            .more spaced (items.after_space spaceAfter), ?_, .cons spelled denotes all⟩
          exact List.forall_mem_cons.mpr ⟨within, allWithin⟩
        · exact nomatch read
      · exact nomatch read

/-- The member at the front of an object, up to the character that closes it. -/
theorem MemberText.taken {name : List Piece} {t : Tree} {text : List Char} {s : String} {v : Value}
    (written : MemberText (name, t) text) (within : t.Within d) (spelled : Spells name s.toList)
    (denotes : Denotes t v) {c : Char} (closer : IsCloser c) (rest : List Char) :
    rest.length < (skipSpace (text ++ c :: rest)).length ∧
      ∃ behind, member item (skipSpace (text ++ c :: rest)) = .ok ((s, v), behind) ∧
        skipSpace behind = c :: rest := by
  obtain ⟨body, afterName, valueText, start, named, colon, value, longer⟩ := written.stands (c :: rest)
  obtain ⟨_, behind, taken, closed⟩ := value.taken exact within denotes closer rest
  rw [start]
  refine ⟨?_, behind, ?_, closed⟩
  · simp only [List.length_append, List.length_cons] at longer ⊢
    omega
  · simp only [member, named s spelled, colon, taken]

theorem members_complete {ms : List (List Piece × Tree)} {body : List Char}
    {entries : List (String × Value)} (written : MembersText ms body)
    (within : ∀ m ∈ ms, m.2.Within d) (denotes : DenoteEntries ms entries) (rest : List Char)
    {bound : Nat} (enough : (skipSpace (body ++ '\x7d' :: rest)).length ≤ bound) :
    members item bound (skipSpace (body ++ '\x7d' :: rest)) = .ok (entries, rest) := by
  induction ms generalizing body entries bound with
  | nil => exact nomatch written
  | cons m ms ih =>
    obtain ⟨first, others⟩ := List.forall_mem_cons.mp within
    cases denotes with
    | @cons name t s v _ entries spelled means meansAll =>
      cases written with
      | one member =>
        obtain ⟨shorter, behind, taken, closed⟩ :=
          member.taken exact first spelled means (.inr (.inr rfl)) rest
        cases meansAll
        obtain ⟨bound, rfl⟩ := Nat.exists_eq_add_of_lt (Nat.lt_of_lt_of_le shorter enough)
        simp only [members, taken, closed]
      | @more _ _ text body member items =>
        rw [List.append_assoc, List.cons_append] at enough ⊢
        obtain ⟨shorter, behind, taken, separated⟩ :=
          member.taken exact first spelled means (.inl rfl) (body ++ '\x7d' :: rest)
        obtain ⟨less, rfl⟩ := Nat.exists_eq_add_of_lt (Nat.lt_of_lt_of_le shorter enough)
        have further : (skipSpace (body ++ '\x7d' :: rest)).length ≤
            (body ++ '\x7d' :: rest).length + less := by
          have := skipSpace_length_le (body ++ '\x7d' :: rest)
          omega
        simp only [members, taken, separated, ih items others meansAll further]

theorem object_sound {text rest : List Char} {v : Value}
    (read : object item text = .ok (v, rest)) :
    ∃ inner, '\x7b' :: text = inner ++ rest ∧ Derives (d + 1) inner v := by
  obtain ⟨w, space, atText⟩ := skipSpace_split text
  unfold object at read
  split at read
  · rename_i empty
    cases read
    rw [empty] at atText
    exact ⟨'\x7b' :: (w ++ ['\x7d']), by simp [atText], .object [], .emptyObject space,
      Tree.within_object.mpr (List.forall_mem_nil _), .object .nil (keeps_distinct [])⟩
  · split at read
    · rename_i entries final taken
      cases read
      obtain ⟨body, ms, atStart, items, within, denotes⟩ := members_sound exact taken
      rw [atStart] at atText
      exact ⟨'\x7b' :: (w ++ body ++ ['\x7d']), by simp [atText], .object ms,
        .object (items.after_space space), Tree.within_object.mpr within,
        .object denotes (keeps_distinct entries)⟩
    · exact nomatch read

theorem object_complete {ms : List (List Piece × Tree)} {inner rest : List Char} {v : Value}
    (written : TreeText (.object ms) ('\x7b' :: inner)) (within : (Tree.object ms).Within (d + 1))
    (denotes : Denotes (.object ms) v) : object item (inner ++ rest) = .ok (v, rest) := by
  cases denotes with
  | object means keeps =>
    cases keeps.eq_distinct
    cases written with
    | emptyObject space =>
      cases means
      rw [object, List.append_assoc, skipSpace_append space]
      rfl
    | @object _ body items =>
      obtain ⟨more, start⟩ := items.head ('\x7d' :: rest)
      have read := members_complete exact items (Tree.within_object.mp within) means rest le_rfl
      rw [start] at read
      rw [object, List.append_assoc, List.singleton_append, start]
      split
      · rename_i same
        exact nomatch same
      · rw [read]

end Containers

theorem string_sound {text rest : List Char} {s : String} {d : Nat}
    (read : stringBody text = .ok (s, rest)) :
    ∃ inner, '"' :: text = inner ++ rest ∧ Derives d inner (.str s) := by
  obtain ⟨body, ps, rfl, pieces, spelled⟩ := stringBody_sound read
  exact ⟨'"' :: (body ++ ['"']), by simp, .string ps, .string (.quoted pieces),
    leaf_within rfl rfl, .string spelled⟩

theorem valueWith_number {n : Numeral} {text : List Char} (written : NumberText n text)
    (nested : Option (Reader Value)) (rest : List Char) :
    valueWith false nested (text ++ rest) = plain false (text ++ rest) := by
  obtain ⟨c, more, rfl, ⟨rfl, _⟩ | digit⟩ := written.head
  · rfl
  · rw [valueWith]
    all_goals
      intro behind same
      obtain rfl := (List.cons.inj same).1
      exact absurd digit (by decide)

theorem array_head {ts : List Tree} {text : List Char} (written : TreeText (.array ts) text) :
    ∃ body, text = '[' :: body := by
  cases written with
  | emptyArray _ => exact ⟨_, rfl⟩
  | array _ => exact ⟨_, rfl⟩

theorem object_head {ms : List (List Piece × Tree)} {text : List Char}
    (written : TreeText (.object ms) text) : ∃ body, text = '\x7b' :: body := by
  cases written with
  | emptyObject _ => exact ⟨_, rfl⟩
  | object _ => exact ⟨_, rfl⟩

theorem valueWith_takes {nested : Option (Reader Value)} {d : Nat} (reaches : Reaches nested d) :
    Takes (valueWith false nested) (Derives d) where
  sound {text rest v} read := by
    unfold valueWith at read
    split at read
    · split at read
      · rename_i s behind body
        cases read
        exact string_sound body
      · exact nomatch read
    · cases reaches with
      | flat => exact nomatch read
      | nested exact => exact array_sound exact read
    · cases reaches with
      | flat => exact nomatch read
      | nested exact => exact object_sound exact read
    · exact plain_sound read
  complete {inner rest v} derives delimited := by
    obtain ⟨t, written, within, denotes⟩ := derives
    -- By trees, not by texts: an array is one case here, whether it is empty or not.
    cases t with
    | null =>
      cases written
      cases denotes
      rfl
    | bool b =>
      cases denotes
      cases written <;> rfl
    | number n =>
      cases written with
      | number number =>
        rw [valueWith_number number, plain_number number]
        exact number_complete number within.integers denotes delimited
    | string ps =>
      cases denotes with
      | string spelled =>
        cases written with
        | string string =>
          cases string with
          | quoted pieces =>
            simp only [List.cons_append, List.append_assoc, List.nil_append, valueWith,
              stringBody_complete pieces spelled]
    | array ts =>
      obtain ⟨body, rfl⟩ := array_head written
      cases reaches with
      | flat => exact absurd within.depth (by simp [Tree.depth])
      | nested exact => exact array_complete exact written within denotes
    | object ms =>
      obtain ⟨body, rfl⟩ := object_head written
      cases reaches with
      | flat => exact absurd within.depth (by simp [Tree.depth])
      | nested exact => exact object_complete exact written within denotes

theorem value_takes (d : Nat) : Takes (value false d) (Derives d) := by
  induction d with
  | zero => exact valueWith_takes .flat
  | succ d ih => exact valueWith_takes (.nested ih)

theorem PaddedText.no_mark {t : Tree} {text : List Char} (written : PaddedText t text) :
    text.head? ≠ some '\uFEFF' := by
  cases written with
  | @padded _ before inner _ space value _ =>
    cases before with
    | nil =>
      obtain ⟨c, more, rfl, starts⟩ := value.head
      intro mark
      obtain rfl := Option.some.inj mark
      exact absurd starts (by decide)
    | cons c more =>
      intro mark
      obtain rfl := Option.some.inj mark
      exact absurd (isSpace_iff.mpr (space _ List.mem_cons_self)) (by decide)

theorem decode_of_no_mark {d : Nat} {text : List Char} (noMark : text.head? ≠ some '\uFEFF') :
    decode ⟨d, false⟩ text =
      match value false d (skipSpace text) with
      | .error refusal => .error refusal
      | .ok (v, rest) =>
        match skipSpace rest with
        | [] => .ok v
        | extra => .error (.malformed .extraData extra) := by
  unfold decode
  split
  · exact absurd rfl noMark
  · rfl

theorem decode_eq_ok {d : Nat} {text : List Char} {v : Value} :
    decode ⟨d, false⟩ text = .ok v ↔ ∃ t, PaddedText t text ∧ t.Within d ∧ Denotes t v := by
  constructor
  · intro read
    obtain ⟨w, space, atText⟩ := skipSpace_split text
    unfold decode at read
    split at read
    · exact nomatch read
    · split at read
      · exact nomatch read
      · rename_i u rest taken
        obtain ⟨inner, atStart, t, written, within, denotes⟩ := (value_takes d).sound taken
        obtain ⟨behind, spaceBehind, atRest⟩ := skipSpace_split rest
        split at read
        · rename_i ended
          cases read
          rw [ended, List.append_nil] at atRest
          rw [atStart, atRest] at atText
          exact ⟨t, atText ▸ .padded space written spaceBehind, within, denotes⟩
        · exact nomatch read
  · rintro ⟨t, written, within, denotes⟩
    rw [decode_of_no_mark written.no_mark]
    cases written with
    | @padded _ before inner behind space value spaceBehind =>
      have delimited : Delimited behind := by
        simpa using spaceBehind.delimited delimited_nil
      have taken := (value_takes d).complete ⟨t, value, within, denotes⟩ delimited
      have ended : skipSpace behind = [] := by
        simpa [skipSpace] using skipSpace_append spaceBehind []
      rw [skipSpace_append space, value.skipSpace_append, taken]
      simp only [ended]

end PayloadCheck.Json
