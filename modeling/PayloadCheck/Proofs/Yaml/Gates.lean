import PayloadCheck.Proofs.Yaml.Moves
import PayloadCheck.Proofs.Yaml.Openers

namespace PayloadCheck.Yaml

/-- What a node directly follows, or follows after blanks. -/
inductive Stem : List Char → Prop
  | start : Stem []
  | byteOrderMark : Stem ['\uFEFF']
  | lineBreak {front : List Char} {ch : Char} (breaks : isBreak ch = true) : Stem (front ++ [ch])
  | indicator {front : List Char} {ch : Char} (opens : ch ∈ ['[', '\x7b', ',', ':', '?', '-']) :
      Stem (front ++ [ch])
  | tag {front word : List Char} (solid : word.all isSolid = true) : Stem (front ++ '!' :: word)

/-- A node may begin behind a text. -/
def Gate (before : List Char) : Prop :=
  ∃ stem blanks, before = stem ++ blanks ∧ Stem stem ∧ blanks.all isBlank = true

theorem Stem.gate {before : List Char} (stem : Stem before) : Gate before :=
  ⟨before, [], by simp, stem, rfl⟩

theorem Gate.blanks {before blanks : List Char} (gate : Gate before)
    (blank : blanks.all isBlank = true) : Gate (before ++ blanks) := by
  obtain ⟨stem, others, rfl, opens, otherBlank⟩ := gate
  exact ⟨stem, others ++ blanks, by simp, opens, by simp [otherBlank, blank]⟩

theorem EndsFresh.gate {text : List Char} (fresh : EndsFresh text) : Gate text := by
  obtain ⟨front, ch, blanks, rfl, breaks, blank⟩ := fresh
  exact ⟨front ++ [ch], blanks, by simp, .lineBreak breaks, blank⟩

/-- If a token is an anchor, it stands in the text where a node may begin. -/
def Gated (text : List Char) (token : Token) : Prop :=
  ∀ name, token.kind = .anchor name → ∃ before after, text = before ++ '&' :: (name ++ after) ∧
    token.start = ((Cursor.ofText text).skip before.length).mark ∧ Gate before ∧
    name ≠ [] ∧ name.all isAnchorCharacter = true

/-- The last of some tokens, comments aside, is one that no node follows; the last of them comes
first. -/
def Shut (past : List Token) : Prop :=
  (past.find? (·.kind ≠ .comment)).any (!·.kind.opens) = true

/-- Among some tokens, the last of which comes first, every anchor stands where a node may begin, or
behind a token that no node follows. -/
def Placed (text : List Char) : List Token → Prop
  | [] => True
  | token :: past => (Gated text token ∨ Shut past) ∧ Placed text past

theorem Token.Kind.other_of_opens {kind : Token.Kind} (opens : kind.opens = true) :
    kind.isAnchor = false ∧ kind ≠ .streamEnd ∧ kind ≠ .comment := by
  cases kind <;> simp_all [Token.Kind.opens, Token.Kind.isAnchor]

theorem Token.Kind.other_of_closes {kind : Token.Kind} (closes : kind.closes = true) :
    kind.isAnchor = false ∧ kind ≠ .streamEnd ∧ kind ≠ .comment ∧ kind.opens = false := by
  cases kind <;> simp_all [Token.Kind.closes, Token.Kind.opens, Token.Kind.isAnchor]

theorem Gated.other {text : List Char} {token : Token} (other : token.kind.isAnchor = false) :
    Gated text token := by
  intro name same
  rw [same] at other
  cases other

theorem Shut.cons {past : List Token} {token : Token} (shuts : token.kind.opens = false)
    (proper : token.kind ≠ .comment) : Shut (token :: past) := by
  simp [Shut, proper, shuts]

theorem Shut.comment {past : List Token} {token : Token} (shut : Shut past)
    (comment : token.kind = .comment) : Shut (token :: past) := by
  simpa [Shut, comment] using shut

/-- What lies before a token that is no comment does not matter. -/
theorem Shut.behind {newer older others : List Token} {token : Token} (proper : token.kind ≠ .comment)
    (shut : Shut (newer ++ token :: older)) : Shut (newer ++ token :: others) := by
  have ends (rest : List Token) : (newer ++ token :: rest).find? (·.kind ≠ .comment) =
      (newer ++ [token]).find? (·.kind ≠ .comment) := by
    simp [List.find?_append, proper]
  unfold Shut at shut ⊢
  rw [ends] at shut ⊢
  exact shut

theorem Shut.filter {past : List Token} (shut : Shut past) :
    Shut (past.filter (·.kind ≠ .comment)) := by
  simpa [Shut, List.find?_filter] using shut

/-- Where no node follows the last token, none may begin. -/
theorem Shut.not_opened {past : List Token} (shut : Shut past) : ¬ Opened past := by
  intro opened
  cases past with
  | nil => simp [Shut] at shut
  | cons token past =>
    have opens : token.kind.opens = true := by simpa [Opened] using opened
    by_cases comment : token.kind = .comment
    · simp [comment, Token.Kind.opens] at opens
    · simp [Shut, comment, opens] at shut

namespace Placed

variable {text : List Char}

theorem append {tokens past : List Token} (gated : ∀ token ∈ tokens, Gated text token)
    (placed : Placed text past) : Placed text (tokens ++ past) := by
  induction tokens with
  | nil => exact placed
  | cons token tokens ih =>
    have ⟨here, others⟩ := List.forall_mem_cons.mp gated
    exact ⟨.inl here, ih others⟩

/-- Tokens may be put in behind a token that is gated. -/
theorem insert {newer older between : List Token} {token : Token}
    (placed : Placed text (newer ++ token :: older)) (gated : Gated text token)
    (proper : token.kind ≠ .comment) (inserted : ∀ other ∈ between, Gated text other) :
    Placed text (newer ++ token :: (between ++ older)) := by
  induction newer with
  | nil => exact ⟨.inl gated, append inserted placed.2⟩
  | cons first newer ih =>
    exact ⟨placed.1.imp_right (Shut.behind proper), ih placed.2⟩

/-- Comments do not matter. -/
theorem filter {past : List Token} (placed : Placed text past) :
    Placed text (past.filter (·.kind ≠ .comment)) := by
  induction past with
  | nil => exact placed
  | cons token past ih =>
    rw [List.filter_cons]
    split
    · exact ⟨placed.1.imp_right .filter, ih placed.2⟩
    · exact ih placed.2

/-- Where the anchors stand where nodes may begin among the tokens, they do so in the text. -/
theorem gated {past : List Token} (placed : Placed text past) (seated : Seated past) :
    ∀ token ∈ past, Gated text token := by
  induction past with
  | nil => simp
  | cons token past ih =>
    rw [List.forall_mem_cons]
    refine ⟨?_, ih placed.2 seated.2⟩
    obtain gated | shut := placed.1
    · exact gated
    · refine .other (Bool.eq_false_iff.mpr fun anchor => ?_)
      exact shut.not_opened (seated.1 anchor)

end Placed

namespace Lexing

/-- A pending key points to a token that is no comment and no misplaced anchor. -/
def Firm (text : List Char) (tokens : List Token) (key : PendingKey) : Prop :=
  ∃ newer token older, tokens = newer ++ token :: older ∧ older.length = key.number ∧
    token.kind ≠ .comment ∧ Gated text token

/-- What holds of the tokens of a text as far as it has been split, and of the keys that are pending,
innermost first. -/
structure Kept (text : List Char) (tokens : List Token) (count : Nat) (keys : List PendingKey) :
    Prop where
  counted : count = tokens.length
  placed : Placed text tokens
  unended : ∀ token ∈ tokens, token.kind ≠ .streamEnd
  firm : ∀ key ∈ keys, Firm text tokens key
  ordered : keys.Pairwise fun inner outer => outer.number < inner.number

theorem Firm.cons {text : List Char} {tokens : List Token} {key : PendingKey}
    (firm : Firm text tokens key) (token : Token) : Firm text (token :: tokens) key := by
  obtain ⟨newer, first, older, rfl, counted, proper, gated⟩ := firm
  exact ⟨token :: newer, first, older, rfl, counted, proper, gated⟩

/-- A key that points to an older token than another stays firm when tokens are put before that one. -/
theorem Firm.insert {text : List Char} {newer older : List Token} {token : Token} {key : PendingKey}
    (firm : Firm text (newer ++ token :: older) key) (below : key.number < older.length)
    (between : List Token) : Firm text (newer ++ token :: (between ++ older)) key := by
  obtain ⟨front, first, past, same, counted, rest⟩ := firm
  have shorter : (first :: past).length ≤ older.length := by
    rw [List.length_cons]
    omega
  have suffix : (first :: past) <:+ older :=
    List.suffix_of_suffix_length_le (same ▸ List.suffix_append front (first :: past))
      ⟨newer ++ [token], by simp⟩ shorter
  obtain ⟨middle, rfl⟩ := suffix
  exact ⟨newer ++ token :: (between ++ middle), first, past, by simp, counted, rest⟩

namespace Kept

variable {text : List Char} {tokens : List Token} {count : Nat} {keys : List PendingKey}

theorem nil (text : List Char) : Kept text [] 0 [] := ⟨rfl, trivial, by simp, by simp, .nil⟩

theorem fewer {others : List PendingKey} (kept : Kept text tokens count keys)
    (sub : others.Sublist keys) : Kept text tokens count others :=
  { kept with
    firm := fun key among => kept.firm key (sub.subset among)
    ordered := kept.ordered.sublist sub }

theorem cons (kept : Kept text tokens count keys) {token : Token}
    (placed : Gated text token ∨ Shut tokens) (more : token.kind ≠ .streamEnd) :
    Kept text (token :: tokens) (count + 1) keys where
  counted := by rw [kept.counted, List.length_cons]
  placed := ⟨placed, kept.placed⟩
  unended := List.forall_mem_cons.mpr ⟨more, kept.unended⟩
  firm := fun key among => (kept.firm key among).cons token
  ordered := kept.ordered

/-- A token may be a key if it is no misplaced anchor. -/
theorem save (kept : Kept text tokens count keys) {token : Token} {key : PendingKey}
    (gated : Gated text token) (more : token.kind ≠ .streamEnd) (proper : token.kind ≠ .comment)
    (counted : key.number = count) : Kept text (token :: tokens) (count + 1) (key :: keys) where
  counted := by rw [kept.counted, List.length_cons]
  placed := ⟨.inl gated, kept.placed⟩
  unended := List.forall_mem_cons.mpr ⟨more, kept.unended⟩
  firm := by
    rw [List.forall_mem_cons]
    refine ⟨⟨[], token, tokens, rfl, ?_, proper, gated⟩,
      fun key among => (kept.firm key among).cons token⟩
    rw [counted, kept.counted]
  ordered := by
    refine List.pairwise_cons.mpr ⟨fun outer among => ?_, kept.ordered⟩
    obtain ⟨newer, first, older, same, before, -⟩ := kept.firm outer among
    rw [counted, kept.counted, same, ← before, List.length_append, List.length_cons]
    omega

/-- Completing the innermost key puts tokens before the one it points to. -/
theorem insert {key : PendingKey} (kept : Kept text tokens count (key :: keys)) {between : List Token}
    (others : ∀ token ∈ between, token.kind.isAnchor = false ∧ token.kind ≠ .streamEnd) :
    Kept text (tokens.take (count - key.number) ++ between.reverse ++ tokens.drop (count - key.number))
      (count + between.length) keys := by
  obtain ⟨⟨newer, token, older, rfl, numbered, proper, gated⟩, outer⟩ :=
    List.forall_mem_cons.mp kept.firm
  obtain ⟨inside, ordered⟩ := List.pairwise_cons.mp kept.ordered
  have counted := kept.counted
  have split : count - key.number = (newer ++ [token]).length := by
    simp only [List.length_append, List.length_cons, List.length_nil] at counted ⊢
    omega
  have whole : newer ++ token :: older = (newer ++ [token]) ++ older := by simp
  have again : newer ++ [token] ++ between.reverse ++ older =
      newer ++ token :: (between.reverse ++ older) := by simp
  rw [split, whole, List.take_left, List.drop_left, again]
  have unended := kept.unended
  simp only [List.forall_mem_append, List.forall_mem_cons] at unended
  constructor
  case counted =>
    simp only [List.length_append, List.length_cons, List.length_reverse] at counted ⊢
    omega
  case placed =>
    refine kept.placed.insert gated proper fun other among => .other ?_
    exact (others other (List.mem_reverse.mp among)).1
  case unended =>
    simp only [List.forall_mem_append, List.forall_mem_cons]
    have inserted : ∀ other ∈ between.reverse, other.kind ≠ .streamEnd :=
      fun other among => (others other (List.mem_reverse.mp among)).2
    exact ⟨unended.1, unended.2.1, inserted, unended.2.2⟩
  case firm =>
    exact fun other among => (outer other among).insert (numbered ▸ inside other among) _
  case ordered => exact ordered

end Kept

end Lexing

end PayloadCheck.Yaml
