import Mathlib.Data.List.Chain
import Mathlib.Data.List.Forall2
import PayloadCheck.Proofs.Document.Height
import PayloadCheck.Proofs.Json.PrintedNumber

namespace PayloadCheck.Json

open Number

def Ascii (text : List Char) : Prop := ∀ c ∈ text, c.toNat < 0x80

instance (text : List Char) : Decidable (Ascii text) :=
  List.decidableBAll _ text

theorem Ascii.append {a b : List Char} (left : Ascii a) (right : Ascii b) : Ascii (a ++ b) :=
  List.forall_mem_append.mpr ⟨left, right⟩

theorem Ascii.cons {c : Char} {text : List Char} (first : c.toNat < 0x80) (others : Ascii text) :
    Ascii (c :: text) :=
  List.forall_mem_cons.mpr ⟨first, others⟩

theorem hexDigit_written {n : Nat} (small : n < 16) :
    HexDigit (hexDigit n) n ∧ (hexDigit n).toNat < 0x80 := by
  interval_cases n <;> exact ⟨Or.inl rfl, by decide⟩

/-- The numeric escape of a unit is written in the grammar. -/
theorem unitEscape_written {code : Nat} (small : code < 0x10000) :
    PieceText (.unit code) (unitEscape code) ∧ Ascii (unitEscape code) := by
  have digit (n : Nat) := hexDigit_written (Nat.mod_lt n (by decide : 0 < 16))
  have digits : code =
      code / 4096 % 16 * 16 ^ 3 + code / 256 % 16 * 16 ^ 2 + code / 16 % 16 * 16 + code % 16 := by
    omega
  have written := PieceText.numeric (digit (code / 4096)).1 (digit (code / 256)).1
    (digit (code / 16)).1 (digit code).1
  rw [← digits] at written
  refine ⟨written, ?_⟩
  refine .cons (by decide) (.cons (by decide) (.cons (digit _).2 (.cons (digit _).2
    (.cons (digit _).2 (.cons (digit _).2 ?_)))))
  exact List.forall_mem_nil _

theorem PiecesText.append {ps qs : List Piece} {a b : List Char} (left : PiecesText ps a)
    (right : PiecesText qs b) : PiecesText (ps ++ qs) (a ++ b) := by
  induction left with
  | nil => exact right
  | cons first _ ih =>
    rw [List.append_assoc]
    exact .cons first ih

instance (u : Nat) : Decidable (IsHigh u) := inferInstanceAs (Decidable (_ ∧ _))

instance (u : Nat) : Decidable (IsLow u) := inferInstanceAs (Decidable (_ ∧ _))

/-- No surrogate that begins a pair stands directly before one that ends it. -/
def Unsplit (text : List Char) : Prop :=
  text.IsChain fun c next => IsHigh (Text.unit c) → ¬ IsLow (Text.unit next)

instance (text : List Char) : Decidable (Unsplit text) := inferInstanceAs (Decidable (List.IsChain _ _))

/-- Pieces write a character, if what comes behind it does not make a pair with it. -/
structure Writes (c : Char) (ps : List Piece) (text : List Char) : Prop where
  written : PiecesText ps text
  ascii : Ascii text
  spells : ∀ {qs : List Piece} {s : List Char}, Spells qs s → Unsplit (c :: s) →
    Spells (ps ++ qs) (c :: s)

theorem PiecesText.one {p : Piece} {text : List Char} (written : PieceText p text) :
    PiecesText [p] text := by
  simpa using PiecesText.cons written .nil

theorem writes_short {letter c : Char} (known : (letter, c) ∈ shortEscapes)
    (plain : letter.toNat < 0x80) : Writes c [.char c] ['\\', letter] where
  written := .one (.short known)
  ascii := .cons (by decide) (.cons plain (List.forall_mem_nil _))
  spells spelled _ := .char spelled

/-- No character is a surrogate. -/
theorem not_surrogate (c : Char) : ¬ IsHigh c.toNat ∧ ¬ IsLow c.toNat ∧ c.toNat < 0x110000 := by
  have valid : c.toNat < 0xD800 ∨ 0xDFFF < c.toNat ∧ c.toNat < 0x110000 := c.valid
  unfold IsHigh IsLow
  omega

/-- What stands for a surrogate has its number, and anything else its own. -/
theorem unit_cases (c : Char) :
    (IsHigh (Text.unit c) ∨ IsLow (Text.unit c)) ∧ Text.unpaired (Text.unit c) = c ∨
      Text.unit c = c.toNat := by
  unfold Text.unit
  split
  · rename_i alone
    have least : 0x10F800 ≤ c.toNat := of_decide_eq_true alone
    have most := (not_surrogate c).2.2
    refine Or.inl ⟨?_, ?_⟩
    · unfold IsHigh IsLow
      omega
    · have same : 0x10F800 + (c.toNat - 0x10F800 + 0xD800 - 0xD800) = c.toNat := by omega
      rw [Text.unpaired, same, Char.ofNat_toNat]
  · exact Or.inr rfl

theorem unit_unpaired {u : Nat} (surrogate : IsHigh u ∨ IsLow u) : Text.unit (Text.unpaired u) = u := by
  unfold IsHigh IsLow at surrogate
  have valid : Nat.isValidChar (0x10F800 + (u - 0xD800)) := Or.inr ⟨by omega, by omega⟩
  have number : (Text.unpaired u).toNat = 0x10F800 + (u - 0xD800) := by
    rw [Text.unpaired, Char.ofNat, dif_pos valid]
    rfl
  have alone : Text.isUnpaired (Text.unpaired u) = true := by
    rw [Text.isUnpaired, number]
    exact decide_eq_true (by omega)
  rw [Text.unit, if_pos alone, number]
  omega

/-- Where a text is spelled with the end of a pair first, it begins with what stands for that. -/
theorem Spells.head_low {low : Nat} {qs : List Piece} {s : List Char} (spelled : Spells qs s)
    (first : qs.head? = some (.unit low)) (isLow : IsLow low) : ∃ d ∈ s.head?, Text.unit d = low := by
  cases spelled with
  | nil => exact nomatch first
  | char _ => exact nomatch first
  | unit _ noLow _ =>
    cases first
    exact absurd isLow noLow
  | pair high _ _ =>
    cases first
    unfold IsHigh at high
    unfold IsLow at isLow
    omega
  | lone surrogate _ _ =>
    cases first
    exact ⟨_, rfl, unit_unpaired surrogate⟩

/-- A character of the basic plane, or what stands for a surrogate, is written as a single unit. -/
theorem writes_unit {c : Char} (basic : Text.unit c < 0x10000) :
    Writes c [.unit (Text.unit c)] (unitEscape (Text.unit c)) where
  written := .one (unitEscape_written basic).1
  ascii := (unitEscape_written basic).2
  spells {qs s} spelled unsplit := by
    rcases unit_cases c with ⟨surrogate, stands⟩ | own
    · have apart : IsHigh (Text.unit c) → ∀ low, qs.head? = some (.unit low) → ¬ IsLow low := by
        intro high low first isLow
        obtain ⟨d, next, rfl⟩ := spelled.head_low first isLow
        exact (List.isChain_cons.mp unsplit).1 d next high isLow
      have lone := Spells.lone surrogate apart spelled
      rwa [stands] at lone
    · obtain ⟨noHigh, noLow, _⟩ := not_surrogate c
      have single := Spells.unit noHigh noLow spelled
      rwa [Char.ofNat_toNat, ← own] at single

/-- A character beyond the basic plane is written as a pair of surrogates. -/
theorem writes_pair {c : Char} (beyond : 0x10000 ≤ c.toNat) :
    let offset := c.toNat - 0x10000
    Writes c [.unit (0xD800 + offset / 0x400), .unit (0xDC00 + offset % 0x400)]
      (unitEscape (0xD800 + offset / 0x400) ++ unitEscape (0xDC00 + offset % 0x400)) := by
  intro offset
  have bound := (not_surrogate c).2.2
  obtain ⟨first, firstAscii⟩ := unitEscape_written (by omega : 0xD800 + offset / 0x400 < 0x10000)
  obtain ⟨second, secondAscii⟩ := unitEscape_written (by omega : 0xDC00 + offset % 0x400 < 0x10000)
  refine ⟨.cons first (.one second), firstAscii.append secondAscii, fun spelled _ => ?_⟩
  have high : IsHigh (0xD800 + offset / 0x400) := by
    unfold IsHigh
    omega
  have low : IsLow (0xDC00 + offset % 0x400) := by
    unfold IsLow
    omega
  have pair := Spells.pair high low spelled
  have whole : 0x10000 + (0xD800 + offset / 0x400 - 0xD800) * 0x400 +
      (0xDC00 + offset % 0x400 - 0xDC00) = c.toNat := by
    omega
  rwa [whole, Char.ofNat_toNat] at pair

theorem escaped_written (c : Char) : ∃ ps, Writes c ps (escaped c) := by
  unfold escaped
  iterate 7
    split
    · subst c
      exact ⟨_, writes_short (by decide) (by decide)⟩
  rename_i noQuote noBackslash _ _ _ _ _
  split
  · rename_i printable
    simp only [Bool.and_eq_true, decide_eq_true_eq] at printable
    refine ⟨[.char c], .one (.plain printable.1 noQuote noBackslash), ?_, fun spelled _ => .char spelled⟩
    exact .cons (by omega) (List.forall_mem_nil _)
  split
  · rename_i basic
    exact ⟨_, writes_unit basic⟩
  · rename_i beyond
    refine ⟨_, writes_pair ?_⟩
    rcases unit_cases c with ⟨surrogate, _⟩ | own
    · unfold IsHigh IsLow at surrogate
      omega
    · omega

/-- A quoted text is a string that spells it, unless it splits a pair. -/
theorem quoted_written (text : List Char) :
    ∃ ps, StringText ps (quoted text) ∧ Ascii (quoted text) ∧ (Unsplit text → Spells ps text) := by
  have body : ∃ ps, PiecesText ps (text.flatMap escaped) ∧ Ascii (text.flatMap escaped) ∧
      (Unsplit text → Spells ps text) := by
    induction text with
    | nil => exact ⟨[], .nil, List.forall_mem_nil _, fun _ => .nil⟩
    | cons c rest ih =>
      obtain ⟨ps, first⟩ := escaped_written c
      obtain ⟨qs, others, ascii, spelled⟩ := ih
      exact ⟨ps ++ qs, first.written.append others, first.ascii.append ascii, fun unsplit =>
        first.spells (spelled (List.isChain_cons.mp unsplit).2) unsplit⟩
  obtain ⟨ps, written, ascii, spelled⟩ := body
  refine ⟨ps, .quoted written, ?_, spelled⟩
  exact .cons (by decide) (ascii.append (.cons (by decide) (List.forall_mem_nil _)))

theorem newline_space (level : Nat) : Space (newline level) := by
  refine List.forall_mem_cons.mpr ⟨by decide, fun c among => ?_⟩
  exact Or.inl (List.eq_of_mem_replicate among)

theorem newline_ascii (level : Nat) : Ascii (newline level) := by
  refine .cons (by decide) fun c among => ?_
  rw [List.eq_of_mem_replicate among]
  decide

section

variable {α : Type} {padded : α → List Char → Prop} {sequence : List α → List Char → Prop}
  (one : ∀ {a : α} {text : List Char}, padded a text → sequence [a] text)
  (more : ∀ {a : α} {as : List α} {text rest : List Char},
    padded a text → sequence as rest → sequence (a :: as) (text ++ ',' :: rest))
include one more

/-- Items on lines of their own, where each may have white space around it. -/
theorem block_written {as : List α} {items : List (List Char)}
    (each : List.Forall₂ (fun a item => ∀ {before behind}, Space before → Space behind →
      padded a (before ++ (item ++ behind))) as items) (opening closing : Char) (level : Nat) :
    (as = [] ∧ block opening closing level items = [opening, closing]) ∨
      ∃ body, block opening closing level items = opening :: (body ++ [closing]) ∧ sequence as body := by
  have inner := newline_space (level + 1)
  have outer := newline_space level
  have behind : ∀ {a : α} {as : List α} {item : List Char} {rest : List (List Char)},
      (∀ {before behind}, Space before → Space behind → padded a (before ++ (item ++ behind))) →
      List.Forall₂ (fun a item => ∀ {before behind}, Space before → Space behind →
        padded a (before ++ (item ++ behind))) as rest →
      sequence (a :: as) (newline (level + 1) ++ item ++
        rest.flatMap (fun next => ',' :: newline (level + 1) ++ next) ++ newline level) := by
    intro a as item rest first others
    induction others generalizing a item with
    | nil =>
      have last := one (first inner outer)
      simpa using last
    | cons next _ ih =>
      have next := more (first inner space_nil) (ih next)
      simpa using next
  cases each with
  | nil => exact Or.inl ⟨rfl, rfl⟩
  | cons first others =>
    refine Or.inr ⟨_, ?_, behind first others⟩
    simp [block]

end

theorem block_ascii {opening closing : Char} (plain : opening.toNat < 0x80 ∧ closing.toNat < 0x80)
    (level : Nat) {items : List (List Char)} (each : ∀ item ∈ items, Ascii item) :
    Ascii (block opening closing level items) := by
  have line := newline_ascii (level + 1)
  have last : Ascii [closing] := .cons plain.2 (List.forall_mem_nil _)
  cases items with
  | nil => exact .cons plain.1 last
  | cons item rest =>
    obtain ⟨first, others⟩ := List.forall_mem_cons.mp each
    have behind : Ascii (rest.flatMap fun next => ',' :: newline (level + 1) ++ next) := by
      intro c among
      obtain ⟨next, listed, inside⟩ := List.mem_flatMap.mp among
      exact Ascii.append (.cons (by decide) line) (others next listed) c inside
    exact .append (.append (.append (.append (.cons plain.1 line) first) behind) (newline_ascii level)) last

theorem NumberText.ascii {n : Numeral} {text : List Char} (written : NumberText n text) : Ascii text := by
  have digits {ds : List Char} (each : ∀ c ∈ ds, '0' ≤ c ∧ c ≤ '9') : Ascii ds := fun c among =>
    Nat.lt_of_le_of_lt (show c.toNat ≤ 57 from (each c among).2) (by decide)
  have mark {e : Char} (known : e = 'e' ∨ e = 'E') : e.toNat < 0x80 := by
    rcases known with rfl | rfl <;> decide
  cases written with
  | @parts negative _ _ _ _ _ whole fraction exponent =>
    refine .append ?_ (.append (digits whole.digits) (.append ?_ ?_))
    · cases negative <;> simp [Ascii, signText]
    · cases fraction with
      | absent => exact List.forall_mem_nil _
      | present behind => exact .cons (by decide) (digits behind.2)
    · cases exponent with
      | absent => exact List.forall_mem_nil _
      | bare known behind => exact .cons (mark known) (digits behind.2)
      | plus known behind => exact .cons (mark known) (.cons (by decide) (digits behind.2))
      | minus known behind => exact .cons (mark known) (.cons (by decide) (digits behind.2))

/-- A value has a text in it, as a string or as the name of a member. -/
inductive Value.Mentions : Value → String → Prop
  | text {s : String} : Mentions (.str s) s
  | name {members : List (String × Value)} {member : String × Value} :
      member ∈ members → Mentions (.obj members) member.1
  | inside {v w : Value} {s : String} : w ∈ v.children → Mentions w s → Mentions v s

theorem Value.mentions_str {s t : String} : (Value.str t).Mentions s ↔ s = t := by
  constructor
  · rintro (_ | _ | ⟨⟨⟩, _⟩)
    rfl
  · rintro rfl
    exact .text

theorem Value.mentions_obj {members : List (String × Value)} {s : String} :
    (Value.obj members).Mentions s ↔ ∃ member ∈ members, s = member.1 ∨ member.2.Mentions s := by
  constructor
  · rintro (_ | ⟨among⟩ | ⟨inside, further⟩)
    · exact ⟨_, among, .inl rfl⟩
    · obtain ⟨member, among, rfl⟩ := List.mem_map.mp inside
      exact ⟨member, among, .inr further⟩
  · rintro ⟨member, among, rfl | further⟩
    · exact .name among
    · exact .inside (List.mem_map_of_mem among) further

/-- A value is one again when its text is read: names come once, and there are no numbers with a fraction
and no split pairs. -/
structure Value.Rereads (v : Value) : Prop where
  once : v.NamesOnce
  floatless : ∀ x, ¬ v.Holds (.float x)
  unsplit : ∀ s, v.Mentions s → Unsplit s.toList

theorem Value.Rereads.child {v : Value} (rereads : v.Rereads) {w : Value} (among : w ∈ v.children) :
    w.Rereads where
  once := rereads.once.children w among
  floatless x held := rereads.floatless x (.inside among held)
  unsplit s mentioned := rereads.unsplit s (.inside among mentioned)

/-- A text writes a tree, and the tree stands for the value if that can be read again. -/
structure Prints (v : Value) (t : Tree) (text : List Char) : Prop where
  written : TreeText t text
  ascii : Ascii text
  within : t.Within v.height
  denotes : v.Rereads → Denotes t v

theorem Tree.Within.of_flat {t : Tree} (flat : t.depth = 0) (integers : t.IntegersFit) (d : Nat) :
    t.Within d :=
  ⟨by omega, integers⟩

theorem Tree.Within.mono {t : Tree} {d e : Nat} (within : t.Within d) (more : d ≤ e) : t.Within e :=
  ⟨Nat.le_trans within.depth more, within.integers⟩

mutual

/-- What is printed is JSON. -/
theorem render?_prints (v : Value) (finite : v.isFinite = true) {level : Nat} {text : List Char}
    (printed : render? level v = some text) : ∃ t, Prints v t text := by
  have noNumbers {t : Tree} (none : t.numerals = []) : t.IntegersFit := by
    intro n among
    rw [none] at among
    exact nomatch among
  cases v with
  | null =>
    cases printed
    exact ⟨.null, .null, by decide, .of_flat rfl (noNumbers rfl) _, fun _ => .null⟩
  | bool b =>
    refine ⟨.bool b, ?_, ?_, .of_flat rfl (noNumbers rfl) _, fun _ => .bool⟩
    · cases b <;> cases printed
      · exact .false
      · exact .true
    · cases b <;> cases printed <;> decide
  | int n =>
    obtain ⟨s, converted, rfl⟩ := Option.map_eq_some_iff.mp printed
    obtain ⟨numeral, written, integer, short, rfl⟩ := text?_written converted
    refine ⟨.number numeral, .number written, written.ascii, .of_flat rfl ?_ _, fun _ =>
      .integer integer⟩
    exact List.forall_mem_singleton.mpr fun _ => short
  | float x =>
    cases printed
    obtain ⟨numeral, written, fractional⟩ := floatText_written finite
    refine ⟨.number numeral, .number written, written.ascii, .of_flat rfl ?_ _,
      fun rereads => absurd .here (rereads.floatless x)⟩
    exact List.forall_mem_singleton.mpr fun integer => absurd integer fractional
  | str s =>
    cases printed
    obtain ⟨ps, written, ascii, spelled⟩ := quoted_written s.toList
    exact ⟨.string ps, .string written, ascii, .of_flat rfl (noNumbers rfl) _, fun rereads =>
      .string (spelled (rereads.unsplit s .text))⟩
  | arr vs =>
    obtain ⟨items, each, rfl⟩ := Option.map_eq_some_iff.mp printed
    obtain ⟨ts, written, ascii, within, denotes⟩ :=
      renderElements?_prints vs (Value.areFinite_iff.mp finite) each
    refine ⟨.array ts, ?_, block_ascii (by decide) level ascii, ?_, ?_⟩
    · rcases block_written ItemsText.one .more written '[' ']' level with ⟨rfl, empty⟩ | ⟨body, text, listed⟩
      · rw [empty]
        exact .emptyArray space_nil
      · rw [text]
        exact .array listed
    · rw [Value.height, Nat.add_comm]
      exact Tree.within_array.mpr within
    · exact fun rereads => .array (denotes fun v among => rereads.child among)
  | obj members =>
    obtain ⟨items, each, rfl⟩ := Option.map_eq_some_iff.mp printed
    obtain ⟨ms, written, ascii, within, denotes⟩ :=
      renderMembers?_prints members (Value.haveFinite_iff.mp finite) each
    refine ⟨.object ms, ?_, block_ascii (by decide) level ascii, ?_, ?_⟩
    · rcases block_written MembersText.one .more written '\x7b' '\x7d' level with ⟨rfl, empty⟩ | ⟨body, text, listed⟩
      · rw [empty]
        exact .emptyObject space_nil
      · rw [text]
        exact .object listed
    · rw [Value.height, Nat.add_comm]
      exact Tree.within_object.mpr within
    · intro rereads
      refine .object (denotes fun member among => ?_) (.self (rereads.once.members_nodup rfl))
      exact ⟨rereads.unsplit _ (.name among), rereads.child (List.mem_map_of_mem among)⟩

theorem renderElements?_prints (vs : List Value) (finite : ∀ v ∈ vs, v.isFinite = true) {level : Nat}
    {items : List (List Char)} (printed : renderElements? level vs = some items) :
    ∃ ts, List.Forall₂ (fun t item => ∀ {before behind}, Space before → Space behind →
        PaddedText t (before ++ (item ++ behind))) ts items ∧
      (∀ item ∈ items, Ascii item) ∧ (∀ t ∈ ts, t.Within (Value.heightOfElements vs)) ∧
      ((∀ v ∈ vs, v.Rereads) → DenoteAll ts vs) := by
  cases vs with
  | nil =>
    cases printed
    exact ⟨[], .nil, List.forall_mem_nil _, List.forall_mem_nil _, fun _ => .nil⟩
  | cons v vs =>
    obtain ⟨first, others⟩ := List.forall_mem_cons.mp finite
    rw [renderElements?] at printed
    split at printed
    · rename_i item rest here behind
      cases printed
      obtain ⟨t, prints⟩ := render?_prints v first here
      obtain ⟨ts, written, ascii, within, denotes⟩ := renderElements?_prints vs others behind
      refine ⟨t :: ts, .cons (fun space after => .padded space prints.written after) written,
        List.forall_mem_cons.mpr ⟨prints.ascii, ascii⟩, List.forall_mem_cons.mpr ⟨?_, ?_⟩, ?_⟩
      · exact prints.within.mono (Nat.le_max_left _ _)
      · exact fun u among => (within u among).mono (Nat.le_max_right _ _)
      · intro each
        obtain ⟨rereads, later⟩ := List.forall_mem_cons.mp each
        exact .cons (prints.denotes rereads) (denotes later)
    · exact nomatch printed

theorem renderMembers?_prints (members : List (String × Value))
    (finite : ∀ member ∈ members, member.2.isFinite = true) {level : Nat}
    {items : List (List Char)} (printed : renderMembers? level members = some items) :
    ∃ ms, List.Forall₂ (fun m item => ∀ {before behind}, Space before → Space behind →
        MemberText m (before ++ (item ++ behind))) ms items ∧
      (∀ item ∈ items, Ascii item) ∧ (∀ m ∈ ms, m.2.Within (Value.heightOfMembers members)) ∧
      ((∀ member ∈ members, Unsplit member.1.toList ∧ member.2.Rereads) →
        DenoteEntries ms members) := by
  cases members with
  | nil =>
    cases printed
    exact ⟨[], .nil, List.forall_mem_nil _, List.forall_mem_nil _, fun _ => .nil⟩
  | cons member rest =>
    obtain ⟨name, v⟩ := member
    obtain ⟨first, others⟩ := List.forall_mem_cons.mp finite
    rw [renderMembers?] at printed
    split at printed
    · rename_i item items here behind
      cases printed
      obtain ⟨t, prints⟩ := render?_prints v first here
      obtain ⟨ps, named, nameAscii, spelled⟩ := quoted_written name.toList
      obtain ⟨ms, written, ascii, within, denotes⟩ := renderMembers?_prints rest others behind
      refine ⟨(ps, t) :: ms, .cons (fun space after => ?_) written,
        List.forall_mem_cons.mpr ⟨?_, ascii⟩, List.forall_mem_cons.mpr ⟨?_, ?_⟩, ?_⟩
      · have padded := PaddedText.padded (List.forall_mem_singleton.mpr (Or.inl rfl)) prints.written after
        have pair := MemberText.pair space named space_nil padded
        simpa using pair
      · exact nameAscii.append (.cons (by decide) (.cons (by decide) prints.ascii))
      · exact prints.within.mono (Nat.le_max_left _ _)
      · exact fun m among => (within m among).mono (Nat.le_max_right _ _)
      · intro each
        obtain ⟨⟨unsplit, rereads⟩, later⟩ := List.forall_mem_cons.mp each
        exact .cons (spelled unsplit) (prints.denotes rereads) (denotes later)
    · exact nomatch printed

end

end PayloadCheck.Json
