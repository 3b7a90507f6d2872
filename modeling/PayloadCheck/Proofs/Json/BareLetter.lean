import PayloadCheck.Proofs.Json.Exactness
import PayloadCheck.Proofs.Json.Printing

namespace PayloadCheck.Json

open Number

/-- A step of a scan over a text, which ends at a capital N or I outside quotes. -/
def scanned : Option Quoting → Char → Option Quoting
  | none, _ => none
  | some .escaped, _ => some .inside
  | some .inside, c => some (if c = '\\' then .escaped else if c = '"' then .outside else .inside)
  | some .outside, c =>
    if c = '"' then some .inside else if c = 'N' ∨ c = 'I' then none else some .outside

/-- A text has no bare letter, and all its quotes are closed. -/
def Clear (text : List Char) : Prop := text.foldl scanned (some .outside) = some .outside

/-- A text has a bare letter. -/
def Bare (text : List Char) : Prop := text.foldl scanned (some .outside) = none

instance (text : List Char) : Decidable (Bare text) := inferInstanceAs (Decidable (_ = _))

theorem Clear.not_bare {text : List Char} (clear : Clear text) : ¬ Bare text := by
  rw [Bare, clear]
  exact Option.some_ne_none _

theorem clear_nil : Clear [] := rfl

theorem Clear.append {a b : List Char} (left : Clear a) (right : Clear b) : Clear (a ++ b) := by
  rw [Clear, List.foldl_append, left, right]

theorem Clear.append_bare {a b : List Char} (left : Clear a) (right : Bare b) : Bare (a ++ b) := by
  rw [Bare, List.foldl_append, left, right]

theorem Bare.append {a : List Char} (bare : Bare a) (b : List Char) : Bare (a ++ b) := by
  rw [Bare, List.foldl_append, bare]
  induction b with
  | nil => rfl
  | cons c b ih => exact ih

/-- A character that changes nothing in a scan outside quotes. -/
def IsPlainLetter (c : Char) : Prop := c ≠ '"' ∧ c ≠ 'N' ∧ c ≠ 'I'

instance (c : Char) : Decidable (IsPlainLetter c) := inferInstanceAs (Decidable (_ ∧ _))

theorem Clear.cons {c : Char} {text : List Char} (plain : IsPlainLetter c) (clear : Clear text) :
    Clear (c :: text) := by
  rw [Clear, List.foldl_cons, scanned, if_neg plain.1, if_neg (not_or.mpr plain.2), clear]

theorem clear_of_plain {text : List Char} (each : ∀ c ∈ text, IsPlainLetter c) : Clear text := by
  induction text with
  | nil => exact clear_nil
  | cons c text ih =>
    obtain ⟨first, others⟩ := List.forall_mem_cons.mp each
    exact .cons first (ih others)

theorem Space.clear {w : List Char} (space : Space w) : Clear w := by
  refine clear_of_plain fun c among => ?_
  rcases space c among with rfl | rfl | rfl | rfl <;> decide

theorem HexDigit.inside {c : Char} {n : Nat} (digit : HexDigit c n) :
    scanned (some .inside) c = some .inside := by
  have small : ∀ d ∈ "0123456789abcdef".toList, scanned (some .inside) d = some .inside := by simp [scanned]
  have capital : ∀ d ∈ "0123456789ABCDEF".toList, scanned (some .inside) d = some .inside := by
    simp [scanned]
  rcases digit with found | found
  · exact small c (List.mem_of_getElem? found)
  · exact capital c (List.mem_of_getElem? found)

theorem PieceText.inside {p : Piece} {text : List Char} (written : PieceText p text) :
    text.foldl scanned (some .inside) = some .inside := by
  cases written with
  | plain _ noQuote noBackslash => simp [scanned, noQuote, noBackslash]
  | short _ => simp [scanned]
  | numeric a b c d =>
    have escape : scanned (scanned (some .inside) '\\') 'u' = some .inside := rfl
    simp only [List.foldl_cons, List.foldl_nil, escape, a.inside, b.inside, c.inside, d.inside]

theorem PiecesText.inside {ps : List Piece} {text : List Char} (written : PiecesText ps text) :
    text.foldl scanned (some .inside) = some .inside := by
  induction written with
  | nil => rfl
  | cons first _ ih => rw [List.foldl_append, first.inside, ih]

theorem StringText.clear {ps : List Piece} {text : List Char} (written : StringText ps text) :
    Clear text := by
  cases written with
  | quoted body =>
    rw [Clear, List.foldl_cons, List.foldl_append]
    exact (congrArg (List.foldl scanned · ['"']) body.inside).trans rfl

theorem digits_clear {ds : List Char} (digits : ∀ c ∈ ds, '0' ≤ c ∧ c ≤ '9') : Clear ds := by
  refine clear_of_plain fun c among => ?_
  obtain ⟨low, high⟩ := digits c among
  refine ⟨?_, ?_, ?_⟩
  · rintro rfl
    exact absurd low (by decide)
  · rintro rfl
    exact absurd high (by decide)
  · rintro rfl
    exact absurd high (by decide)

theorem NumberText.clear {n : Numeral} {text : List Char} (written : NumberText n text) : Clear text := by
  have mark {e : Char} (known : e = 'e' ∨ e = 'E') : IsPlainLetter e := by
    rcases known with rfl | rfl <;> decide
  cases written with
  | @parts negative _ _ _ _ _ whole fraction exponent =>
    refine .append ?_ (.append (digits_clear whole.digits) (.append ?_ ?_))
    · cases negative <;> rfl
    · cases fraction with
      | absent => exact clear_nil
      | present behind => exact .cons (by decide) (digits_clear behind.2)
    · cases exponent with
      | absent => exact clear_nil
      | bare known behind => exact .cons (mark known) (digits_clear behind.2)
      | plus known behind => exact .cons (mark known) (.cons (by decide) (digits_clear behind.2))
      | minus known behind => exact .cons (mark known) (.cons (by decide) (digits_clear behind.2))

mutual

theorem TreeText.clear {t : Tree} {text : List Char} : TreeText t text → Clear text
  | .null => rfl
  | .true => rfl
  | .false => rfl
  | .number written => written.clear
  | .string written => written.clear
  | .emptyArray space => .cons (by decide) (space.clear.append rfl)
  | .array items => .cons (by decide) (items.clear.append rfl)
  | .emptyObject space => .cons (by decide) (space.clear.append rfl)
  | .object members => .cons (by decide) (members.clear.append rfl)

theorem PaddedText.clear {t : Tree} {text : List Char} : PaddedText t text → Clear text
  | .padded before written behind => before.clear.append (written.clear.append behind.clear)

theorem ItemsText.clear {ts : List Tree} {text : List Char} : ItemsText ts text → Clear text
  | .one first => first.clear
  | .more first rest => first.clear.append (.cons (by decide) rest.clear)

theorem MemberText.clear {m : List Piece × Tree} {text : List Char} : MemberText m text → Clear text
  | .pair before name behind written =>
    before.clear.append (name.clear.append (behind.clear.append (.cons (by decide) written.clear)))

theorem MembersText.clear {ms : List (List Piece × Tree)} {text : List Char} :
    MembersText ms text → Clear text
  | .one first => first.clear
  | .more first rest => first.clear.append (.cons (by decide) rest.clear)

end

theorem clear_newline (level : Nat) : Clear (newline level) := (newline_space level).clear

/-- A block has the bare letters of its first item that has any. -/
theorem block_bare {opening closing : Char} (plain : IsPlainLetter opening) (level : Nat)
    {before after : List (List Char)} {item : List Char} (clear : ∀ item ∈ before, Clear item)
    (bare : Bare item) : Bare (block opening closing level (before ++ item :: after)) := by
  have line := clear_newline (level + 1)
  have comma : Clear (',' :: newline (level + 1)) := .cons (by decide) line
  cases before with
  | nil =>
    rw [List.nil_append, block]
    exact (((line.cons plain).append_bare bare).append _ |>.append _).append _
  | cons first more =>
    obtain ⟨firstClear, others⟩ := List.forall_mem_cons.mp clear
    have moreClear : Clear (more.flatMap fun next => ',' :: newline (level + 1) ++ next) := by
      induction more with
      | nil => exact clear_nil
      | cons next more ih =>
        obtain ⟨nextClear, others⟩ := List.forall_mem_cons.mp others
        exact (comma.append nextClear).append
          (ih (List.forall_mem_cons.mpr ⟨firstClear, others⟩) others)
    rw [List.cons_append, block, List.flatMap_append, List.flatMap_cons]
    have behind (last : List Char) := moreClear.append_bare ((comma.append_bare bare).append last)
    exact ((((line.cons plain).append firstClear).append_bare (behind _)).append _).append _

theorem floatText_bare {x : Binary64} (other : isFiniteNumber x = false) :
    Bare (floatFormat.text x).toList := by
  cases x with
  | finite negative mantissa exponent => exact nomatch other
  | infinite negative => cases negative <;> decide
  | nan => decide

mutual

theorem render?_bare (v : Value) (other : v.isFinite = false) {level : Nat} {text : List Char}
    (printed : render? level v = some text) : Bare text := by
  cases v with
  | float x =>
    cases printed
    exact floatText_bare other
  | arr vs =>
    obtain ⟨items, each, rfl⟩ := Option.map_eq_some_iff.mp printed
    obtain ⟨before, item, after, rfl, clear, bare⟩ := renderElements?_bare vs other each
    exact block_bare (by decide) level clear bare
  | obj members =>
    obtain ⟨items, each, rfl⟩ := Option.map_eq_some_iff.mp printed
    obtain ⟨before, item, after, rfl, clear, bare⟩ := renderMembers?_bare members other each
    exact block_bare (by decide) level clear bare
  | _ => exact nomatch other

theorem renderElements?_bare (vs : List Value) (other : Value.areFinite vs = false) {level : Nat}
    {items : List (List Char)} (printed : renderElements? level vs = some items) :
    ∃ before item after, items = before ++ item :: after ∧ (∀ item ∈ before, Clear item) ∧ Bare item := by
  cases vs with
  | nil => exact nomatch other
  | cons v vs =>
    rw [renderElements?] at printed
    split at printed
    · rename_i item rest here behind
      cases printed
      cases finite : v.isFinite with
      | false => exact ⟨[], item, rest, rfl, List.forall_mem_nil _, render?_bare v finite here⟩
      | true =>
        obtain ⟨t, prints⟩ := render?_prints v finite here
        rw [Value.areFinite, finite, Bool.true_and] at other
        obtain ⟨before, next, after, rfl, clear, bare⟩ := renderElements?_bare vs other behind
        exact ⟨item :: before, next, after, rfl,
          List.forall_mem_cons.mpr ⟨prints.written.clear, clear⟩, bare⟩
    · exact nomatch printed

theorem renderMembers?_bare (members : List (String × Value)) (other : Value.haveFinite members = false)
    {level : Nat} {items : List (List Char)} (printed : renderMembers? level members = some items) :
    ∃ before item after, items = before ++ item :: after ∧ (∀ item ∈ before, Clear item) ∧ Bare item := by
  cases members with
  | nil => exact nomatch other
  | cons member rest =>
    obtain ⟨name, v⟩ := member
    rw [renderMembers?] at printed
    split at printed
    · rename_i item items here behind
      cases printed
      obtain ⟨ps, named, _⟩ := quoted_written name.toList
      have front : Clear (quoted name.toList ++ [':', ' ']) := named.clear.append rfl
      rw [show quoted name.toList ++ ':' :: ' ' :: item = quoted name.toList ++ [':', ' '] ++ item by simp]
      cases finite : v.isFinite with
      | false =>
        exact ⟨[], _, items, rfl, List.forall_mem_nil _, front.append_bare (render?_bare v finite here)⟩
      | true =>
        obtain ⟨t, prints⟩ := render?_prints v finite here
        rw [Value.haveFinite, finite, Bool.true_and] at other
        obtain ⟨before, next, after, rfl, clear, bare⟩ := renderMembers?_bare rest other behind
        exact ⟨_ :: before, next, after, rfl,
          List.forall_mem_cons.mpr ⟨front.append prints.written.clear, clear⟩, bare⟩
    · exact nomatch printed

end

theorem clear_of_blank {text : List Char} (blank : Text.allBlank text = true) : Clear text := by
  refine clear_of_plain fun c among => ?_
  have isBlank := List.all_eq_true.mp blank c among
  refine ⟨?_, ?_, ?_⟩ <;> rintro rfl <;> exact absurd isBlank (by decide)

/-- What is printed is read again exactly where all numbers are finite. -/
theorem parse_printed_iff {v : Value} (low : v.height ≤ nestingLimit) {level : Nat} {text : List Char}
    (printed : render? level v = some text) : (parse text).1 = .valid ↔ v.isFinite = true := by
  constructor
  · intro valid
    refine Bool.of_not_eq_false fun other => ?_
    have bare := render?_bare v other printed
    rcases parse_cases text with blank | ⟨t, _, written, _⟩ | ⟨message, place, _, refused⟩
    · exact (clear_of_blank blank).not_bare bare
    · exact written.clear.not_bare bare
    · rw [refused] at valid
      exact nomatch valid
  · intro finite
    obtain ⟨t, prints⟩ := render?_prints v finite printed
    obtain ⟨w, denotes⟩ := t.denotes
    rw [parse_of_tree prints.written.padded (prints.within.mono low) denotes]

end PayloadCheck.Json
