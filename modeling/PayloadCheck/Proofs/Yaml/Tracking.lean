import PayloadCheck.Proofs.Yaml.Gates
import PayloadCheck.Proofs.Yaml.Readers

namespace PayloadCheck.Yaml

namespace Lexing

/-- Where the splitting of a text stands: a node may begin here, or the text ends, or the last token is
one that no node follows. -/
def Ready (text : List Char) (c : Cursor) (keyAllowed : Bool) (tokens : List Token) : Prop :=
  ∃ before, (Cursor.ofText text).Passes before c ∧
    (Gate before ∨ c.peek = nul ∨ (keyAllowed = false ∧ Shut tokens))

/-- The invariant of splitting a text. -/
structure Tracked (text : List Char) (s : Lexing) : Prop where
  kept : Kept text s.tokens s.count s.pendingKeys
  ready : Ready text s.cursor s.keyAllowed s.tokens

/-- A text has been split up to its end. -/
def Finished (text : List Char) (s : Lexing) : Prop :=
  ∃ last past, s.tokens = last :: past ∧ last.kind = .streamEnd ∧ Placed text past ∧
    ∀ token ∈ past, token.kind ≠ .streamEnd

/-- Moving on passes blanks, or ends on a later line. -/
def Moved (s near : Lexing) : Prop :=
  (near.keyAllowed = s.keyAllowed ∧
    ∃ blanks, s.cursor.Passes blanks near.cursor ∧ blanks.all isBlank = true) ∨
  s.cursor.Descends near.cursor

theorem Moved.leads {s near : Lexing} : Moved s near → s.cursor.Leads near.cursor
  | .inl ⟨_, blanks, moved, _⟩ => ⟨blanks, moved⟩
  | .inr descends => descends.leads

theorem Moved.trans {s near far : Lexing} (first : Moved s near) (second : Moved near far) :
    Moved s far := by
  obtain ⟨further, blanks, moved, blank⟩ | below := second
  · obtain ⟨same, others, before, otherBlank⟩ | descends := first
    · exact .inl ⟨further.trans same, others ++ blanks, before.trans moved, by simp [otherBlank, blank]⟩
    · exact .inr (descends.blanks moved blank)
  · exact .inr (.after first.leads below)

/-- Moving to the next token adds a comment at most. -/
structure Nears (s near : Lexing) : Prop where
  tokens : (near.tokens = s.tokens ∧ near.count = s.count) ∨
    ∃ comment : Token, comment.kind = .comment ∧ near.tokens = comment :: s.tokens ∧
      near.count = s.count + 1
  keys : near.pendingKeys = s.pendingKeys
  moved : Moved s near

theorem skipBlanks_passes (s : Lexing) :
    ∃ blanks, s.cursor.Passes blanks s.skipBlanks ∧ blanks.all isBlank = true := by
  refine ⟨_, .skipWhile s.cursor _, ?_⟩
  rw [List.all_eq_true]
  intro ch among
  have blank := List.all_eq_true.mp List.all_takeWhile ch among
  simp only [Bool.or_eq_true, Bool.and_eq_true, beq_iff_eq] at blank
  rcases blank with rfl | ⟨_, rfl⟩ <;> rfl

theorem approach_nears (fuel : Nat) (s : Lexing) (clean : nul ∉ s.cursor.rest) :
    Nears s (s.approach fuel).1 := by
  fun_induction approach fuel s with
  | case1 s => exact ⟨.inl ⟨rfl, rfl⟩, rfl, .inl ⟨rfl, [], .refl _, rfl⟩⟩
  | case2 _ s c comment =>
    obtain ⟨blanks, moved, _⟩ := s.skipBlanks_passes
    have unused : nul ∉ c.rest := Cursor.Leads.clean clean ⟨blanks, moved⟩
    have past := commentEnd_descends unused
    exact ⟨.inr ⟨comment, rfl, rfl, rfl⟩, rfl, .inr (.after ⟨blanks, moved⟩ past)⟩
  | case3 _ s =>
    obtain ⟨blanks, moved, blank⟩ := s.skipBlanks_passes
    exact ⟨.inl ⟨rfl, rfl⟩, rfl, .inl ⟨rfl, blanks, moved, blank⟩⟩
  | case4 _ s _ _ _ _ broken _ comment =>
    obtain ⟨blanks, moved, _⟩ := s.skipBlanks_passes
    have below := Cursor.Descends.after ⟨blanks, moved⟩ (.lineBreak broken)
    exact ⟨.inr ⟨comment, rfl, rfl, rfl⟩, rfl, .inr below.spacing⟩
  | case5 _ s _ _ _ after broken _ ih =>
    obtain ⟨blanks, moved, _⟩ := s.skipBlanks_passes
    have below : Moved s (s.newLine after) := .inr (.after ⟨blanks, moved⟩ (.lineBreak broken))
    have near := ih (below.leads.clean clean)
    exact ⟨near.tokens, near.keys, below.trans near.moved⟩

/-- Passing the comments behind a block adds none of them. -/
theorem skipComments_moved (fuel : Nat) (s : Lexing) (clean : nul ∉ s.cursor.rest) :
    Moved s (s.skipComments fuel) ∧ (s.skipComments fuel).tokens = s.tokens ∧
      (s.skipComments fuel).count = s.count ∧ (s.skipComments fuel).pendingKeys = s.pendingKeys := by
  fun_induction skipComments fuel s with
  | case1 s => exact ⟨.inl ⟨rfl, [], .refl _, rfl⟩, rfl, rfl, rfl⟩
  | case2 _ s near after read ih =>
    have nears := approach_nears (s.cursor.rest.length + 1) s clean
    rw [read] at nears
    have here : Moved s after := nears.moved
    obtain ⟨moved, tokens, count, keys⟩ := ih (here.leads.clean clean)
    exact ⟨here.trans moved, tokens, count, keys.trans nears.keys⟩
  | case3 _ s near found read after =>
    have nears := approach_nears (s.cursor.rest.length + 1) s clean
    rw [read] at nears
    exact ⟨nears.moved, rfl, rfl, nears.keys⟩

variable {text : List Char} {s t near after : Lexing} {kind : Token.Kind} {ch : Char}

theorem Ready.moved {tokens later : List Token} (ready : Ready text s.cursor s.keyAllowed tokens)
    (moved : Moved s near) (shut : Shut tokens → Shut later) :
    Ready text near.cursor near.keyAllowed later := by
  obtain ⟨before, stands, state⟩ := ready
  obtain ⟨same, blanks, passed, blank⟩ | ⟨passed, below, ends⟩ := moved
  · refine ⟨_, stands.trans passed, ?_⟩
    rcases state with gate | ended | ⟨forbidden, closed⟩
    · exact .inl (gate.blanks blank)
    · exact .inr (.inl (passed.ended blank ended ▸ ended))
    · exact .inr (.inr ⟨same.trans forbidden, shut closed⟩)
  · exact ⟨_, stands.trans below, ends.imp (fun fresh => (fresh.append before).gate) .inl⟩

theorem Tracked.nears (tracked : Tracked text s) (nears : Nears s near) : Tracked text near := by
  obtain ⟨same, count⟩ | ⟨comment, kind, same, count⟩ := nears.tokens
  · refine ⟨?_, tracked.ready.moved nears.moved fun shut => by rwa [same]⟩
    rw [same, count, nears.keys]
    exact tracked.kept
  · refine ⟨?_, tracked.ready.moved nears.moved fun shut => by rw [same]; exact shut.comment kind⟩
    rw [same, count, nears.keys]
    exact tracked.kept.cons (.inl (.other (by rw [kind]; rfl))) (by rw [kind]; simp)

theorem dropKey_tracked (tracked : Tracked text s) (done : s.dropKey = .ok after) :
    Tracked text after := by
  unfold dropKey at done
  split at done
  · cases done
  · cases done
    exact ⟨tracked.kept.fewer (List.sublist_append_right _ _), tracked.ready⟩

theorem dropStale_tracked (tracked : Tracked text s) (done : s.dropStale = .ok after) :
    Tracked text after := by
  unfold dropStale at done
  split at done
  · cases done
  · cases done
    refine ⟨tracked.kept.fewer ?_, tracked.ready⟩
    have fresh : ∀ key : Option PendingKey, (key.filter (!s.isStale ·)).toList =
        key.toList.filter (!s.isStale ·) := by
      intro key
      cases key with
      | none => rfl
      | some key => by_cases stale : s.isStale key <;> simp [Option.filter, stale]
    have kept : (s.brackets.map fun bracket =>
          { bracket with outer := bracket.outer.filter (!s.isStale ·) }).filterMap (·.outer) =
        (s.brackets.filterMap (·.outer)).filter (!s.isStale ·) := by
      rw [List.filterMap_map, List.filter_filterMap]
      rfl
    unfold pendingKeys
    dsimp only
    rw [fresh, kept, ← List.filter_append]
    exact List.filter_sublist

/-- A token of no extent that no node follows leaves the next token where it may stand. -/
theorem Tracked.pushHere (tracked : Tracked text s) (closes : kind.closes = true) :
    Tracked text (s.pushHere kind) := by
  obtain ⟨other, more, proper, shuts⟩ := Token.Kind.other_of_closes closes
  obtain ⟨before, stands, state⟩ := tracked.ready
  refine ⟨tracked.kept.cons (.inl (.other other)) more, before, stands, ?_⟩
  exact state.imp_right (.imp_right (.imp_right fun _ => .cons shuts proper))

theorem Tracked.unwindTo (column : Nat) (indents : List Nat) (tracked : Tracked text s) :
    Tracked text (unwindTo column indents s) := by
  fun_induction Lexing.unwindTo column indents s with
  | case1 => exact ⟨tracked.kept, tracked.ready⟩
  | case2 _ _ _ _ ih => exact ih (tracked.pushHere rfl)
  | case3 => exact ⟨tracked.kept, tracked.ready⟩

theorem Tracked.unwind (tracked : Tracked text s) : Tracked text s.unwind := by
  unfold Lexing.unwind
  split
  · exact tracked
  · exact tracked.unwindTo _ _

theorem Tracked.unwindAll (tracked : Tracked text s) : Tracked text s.unwindAll := by
  have closed (indents : List Nat) {s : Lexing} (tracked : Tracked text s) :
      Tracked text (indents.foldl (fun s _ => s.pushHere .blockEnd) s) := by
    induction indents generalizing s with
    | nil => exact tracked
    | cons _ _ ih => exact ih (tracked.pushHere rfl)
  unfold Lexing.unwindAll
  split
  · exact tracked
  · have all := closed s.indents tracked
    exact ⟨all.kept, all.ready⟩

theorem Tracked.openBlock (tracked : Tracked text s) (closes : kind.closes = true) :
    Tracked text (s.openBlock kind) := by
  unfold Lexing.openBlock
  split
  · have opened := tracked.pushHere closes
    exact ⟨opened.kept, opened.ready⟩
  · exact tracked

theorem unwindAll_cursor (s : Lexing) : s.unwindAll.cursor = s.cursor := by
  have closed (indents : List Nat) (s : Lexing) :
      (indents.foldl (fun s _ => s.pushHere .blockEnd) s).cursor = s.cursor := by
    induction indents generalizing s with
    | nil => rfl
    | cons _ _ ih => exact ih _
  unfold unwindAll
  split
  · rfl
  · exact closed _ _

theorem openBlock_cursor (s : Lexing) (kind : Token.Kind) : (s.openBlock kind).cursor = s.cursor := by
  unfold openBlock
  split <;> rfl

theorem dropKey_cursor (done : s.dropKey = .ok after) : after.cursor = s.cursor := by
  unfold dropKey at done
  split at done
  · cases done
  · cases done
    rfl

theorem Tracked.leads (tracked : Tracked text s) : (Cursor.ofText text).Leads s.cursor := by
  obtain ⟨before, stands, _⟩ := tracked.ready
  exact ⟨before, stands⟩

/-- Behind an indicator of one character a node may begin. -/
theorem takeIndicator_tracked (kept : Kept text s.tokens s.count s.pendingKeys)
    (leads : (Cursor.ofText text).Leads s.cursor) (ahead : s.cursor.peek = ch)
    (indicator : ch ∈ ['[', '\x7b', ',', ':', '?', '-']) (opens : kind.opens = true) :
    Tracked text (s.take kind 1) := by
  obtain ⟨other, more, _⟩ := Token.Kind.other_of_opens opens
  obtain ⟨before, stands⟩ := leads
  have real : ch ≠ nul := by
    rintro rfl
    simp [nul] at indicator
  exact ⟨kept.cons (.inl (.other other)) more, _, stands.trans (.peeked ahead real),
    .inl (Stem.indicator indicator).gate⟩

/-- Behind a token that no node follows none may begin. -/
theorem takeShut_tracked {length : Nat} (kept : Kept text s.tokens s.count s.pendingKeys)
    (leads : (Cursor.ofText text).Leads s.cursor) (forbidden : s.keyAllowed = false)
    (closes : kind.closes = true) : Tracked text (s.take kind length) := by
  obtain ⟨other, more, proper, shuts⟩ := Token.Kind.other_of_closes closes
  obtain ⟨before, stands⟩ := leads
  exact ⟨kept.cons (.inl (.other other)) more, _, stands.trans (.skip _ length),
    .inr (.inr ⟨forbidden, .cons shuts proper⟩)⟩

theorem endStream_cursor (done : s.endStream = .ok after) : after.cursor = s.cursor := by
  unfold endStream at done
  split at done
  · cases done
  · rename_i dropped
    cases done
    exact (dropKey_cursor dropped).trans s.unwindAll_cursor

theorem endStream_finished (tracked : Tracked text s) (done : s.endStream = .ok after) :
    Finished text after := by
  unfold endStream at done
  split at done
  · cases done
  · rename_i dropped
    cases done
    have kept := (dropKey_tracked tracked.unwindAll dropped).kept
    exact ⟨_, _, rfl, rfl, kept.placed, kept.unended⟩

theorem atMarker_dashes {c : Cursor} (marked : c.atMarker = true) (dash : c.peek = '-') :
    c.rest.take 3 = ['-', '-', '-'] := by
  simp only [Cursor.atMarker, Bool.and_eq_true, Bool.or_eq_true, List.isPrefixOf_iff_prefix] at marked
  obtain dashes | points := marked.1
  · exact (List.prefix_iff_eq_take.mp dashes).symm
  · obtain ⟨rest, whole⟩ := points
    rw [Cursor.peek_of_rest whole.symm] at dash
    exact absurd dash (by decide)

theorem marker_tracked (tracked : Tracked text s) (marked : s.cursor.atMarker = true)
    (done : s.marker (if s.cursor.peek == '-' then .documentStart else .documentEnd) = .ok after) :
    Tracked text after := by
  unfold marker at done
  split at done
  · cases done
  · rename_i t dropped
    have all := dropKey_tracked tracked.unwindAll dropped
    have same : t.cursor = s.cursor := (dropKey_cursor dropped).trans s.unwindAll_cursor
    cases done
    split
    · rename_i dash
      obtain ⟨before, stands⟩ := all.leads
      have passed := Cursor.Passes.skip t.cursor 3
      rw [same, atMarker_dashes marked (by simpa using dash), ← same] at passed
      have gate : Gate (before ++ ['-', '-', '-']) := by
        have stem : Stem ((before ++ ['-', '-']) ++ ['-']) := .indicator (by simp)
        simpa using stem.gate
      exact ⟨all.kept.cons (.inl (.other rfl)) (by simp), _, stands.trans passed, .inl gate⟩
    · exact takeShut_tracked all.kept all.leads rfl rfl

/-- Behind an indicator that ends the pending key a node may begin. -/
theorem takeAfterDrop_tracked (tracked : Tracked text s) (dropped : s.dropKey = .ok t)
    (allowed : Bool) (ahead : s.cursor.peek = ch)
    (indicator : ch ∈ ['[', '\x7b', ',', ':', '?', '-']) (opens : kind.opens = true) :
    Tracked text ({ t with keyAllowed := allowed }.take kind 1) := by
  have all := dropKey_tracked tracked dropped
  have here : t.cursor.peek = ch := by rw [dropKey_cursor dropped, ahead]
  exact takeIndicator_tracked all.kept all.leads here indicator opens

theorem comma_tracked (tracked : Tracked text s) (ahead : s.cursor.peek = ',')
    (done : s.comma = .ok after) : Tracked text after := by
  unfold comma at done
  split at done
  · cases done
  · cases done
    exact takeAfterDrop_tracked tracked ‹_› true ahead (by simp) rfl

/-- A block may be opened outside brackets. -/
theorem Tracked.openOutside (tracked : Tracked text s) (closes : kind.closes = true) :
    Tracked text (if s.inFlow then s else s.openBlock kind) := by
  split
  · exact tracked
  · exact tracked.openBlock closes

theorem openOutside_cursor (s : Lexing) (kind : Token.Kind) :
    (if s.inFlow then s else s.openBlock kind).cursor = s.cursor := by
  split
  · rfl
  · exact s.openBlock_cursor kind

theorem entry_tracked (tracked : Tracked text s) (ahead : s.cursor.peek = '-')
    (done : s.entry = .ok after) : Tracked text after := by
  have here : (if s.inFlow then s else s.openBlock .blockSequence).cursor.peek = '-' := by
    rw [openOutside_cursor, ahead]
  unfold entry at done
  split at done
  · cases done
  · extract_lets opened at done
    split at done
    · cases done
    · cases done
      exact takeAfterDrop_tracked (tracked.openOutside rfl) ‹_› true here (by simp) rfl

theorem explicitKey_tracked (tracked : Tracked text s) (ahead : s.cursor.peek = '?')
    (done : s.explicitKey = .ok after) : Tracked text after := by
  have here : (if s.inFlow then s else s.openBlock .blockMapping).cursor.peek = '?' := by
    rw [openOutside_cursor, ahead]
  unfold explicitKey at done
  split at done
  · cases done
  · extract_lets opened at done
    split at done
    · cases done
    · cases done
      exact takeAfterDrop_tracked (tracked.openOutside rfl) ‹_› _ here (by simp) rfl

theorem completeKey_cursor (s : Lexing) (key : PendingKey) :
    (s.completeKey key).cursor = s.cursor := by
  unfold completeKey
  dsimp only
  split <;> rfl

theorem completeKey_kept {key : PendingKey} (kept : Kept text s.tokens s.count (key :: s.pendingKeys)) :
    Kept text (s.completeKey key).tokens (s.completeKey key).count (s.completeKey key).pendingKeys := by
  unfold completeKey
  dsimp only
  split
  · exact kept.insert (by simp [Token.Kind.isAnchor])
  · exact kept.insert (by simp [Token.Kind.isAnchor])

theorem value_tracked (tracked : Tracked text s) (ahead : s.cursor.peek = ':')
    (done : s.value = .ok after) : Tracked text after := by
  unfold value at done
  split at done
  · rename_i key pending
    extract_lets completed at done
    cases done
    have keys : s.pendingKeys = key :: { s with pending := none, keyAllowed := false }.pendingKeys := by
      simp [pendingKeys, pending]
    have same : completed.cursor = s.cursor := completeKey_cursor _ key
    have kept := tracked.kept
    rw [keys] at kept
    exact takeIndicator_tracked (completeKey_kept kept) (same ▸ tracked.leads) (by rw [same, ahead])
      (by simp) rfl
  · split at done
    · cases done
    · extract_lets opened at done
      cases done
      have all : Tracked text opened := tracked.openOutside rfl
      have here : opened.cursor.peek = ':' := by
        rw [← ahead]
        exact congrArg _ (openOutside_cursor s _)
      exact takeIndicator_tracked all.kept all.leads here (by simp) rfl

theorem saveKey_ok (done : s.saveKey = .ok after) :
    (s.keyAllowed = false ∧ after = s) ∨ (s.keyAllowed = true ∧
      ∃ key : PendingKey, key.number = s.count ∧ after = { s with pending := some key }) := by
  unfold saveKey at done
  split at done
  · rename_i allowed
    unfold dropKey at done
    split at done
    · cases done
    · rename_i dropped
      split at dropped
      · cases dropped
      · cases dropped
        cases done
        exact .inr ⟨allowed, _, rfl, rfl⟩
  · rename_i forbidden
    cases done
    exact .inl ⟨Bool.eq_false_iff.mpr forbidden, rfl⟩

theorem saveKey_cursor (done : s.saveKey = .ok after) : after.cursor = s.cursor := by
  obtain ⟨_, rfl⟩ | ⟨_, _, _, rfl⟩ := saveKey_ok done <;> rfl

/-- A token that may be a key is added. An anchor that may be one stands where a node may begin. -/
theorem saveKey_kept (tracked : Tracked text s) (saved : s.saveKey = .ok t) (token : Token)
    (more : token.kind ≠ .streamEnd) (proper : token.kind ≠ .comment)
    (placed : Gated text token ∨ (s.keyAllowed = false ∧ Shut s.tokens)) :
    Kept text (token :: t.tokens) (t.count + 1) t.pendingKeys := by
  obtain ⟨forbidden, rfl⟩ | ⟨allowed, key, numbered, rfl⟩ := saveKey_ok saved
  · exact tracked.kept.cons (placed.imp_right And.right) more
  · have gated : Gated text token := by
      obtain gated | ⟨forbidden, _⟩ := placed
      · exact gated
      · rw [allowed] at forbidden
        cases forbidden
    have outer : Kept text s.tokens s.count (s.brackets.filterMap (·.outer)) :=
      tracked.kept.fewer (List.sublist_append_right _ _)
    exact outer.save gated more proper numbered

theorem openBracket_tracked (tracked : Tracked text s) {square : Bool} (ahead : s.cursor.peek = ch)
    (bracket : ch ∈ ['[', '\x7b']) (done : s.openBracket square = .ok after) : Tracked text after := by
  unfold openBracket at done
  split at done
  · cases done
  · rename_i t saved
    extract_lets opened at done
    cases done
    have kind : (if square then Token.Kind.openSquare else .openCurly).opens = true := by
      cases square <;> rfl
    obtain ⟨other, more, proper⟩ := Token.Kind.other_of_opens kind
    have keys : opened.pendingKeys = t.pendingKeys := by
      cases pending : t.pending <;> simp [opened, pendingKeys, pending]
    have opens : ch ∈ ['[', '\x7b', ',', ':', '?', '-'] := by
      simp only [List.mem_cons, List.not_mem_nil, or_false] at bracket ⊢
      tauto
    have real : ch ≠ nul := by
      rintro rfl
      simp [nul] at bracket
    have same : t.cursor = s.cursor := saveKey_cursor saved
    obtain ⟨before, stands⟩ := tracked.leads
    have passed : t.cursor.Passes [ch] t.cursor.next := .peeked (by rw [same, ahead]) real
    refine ⟨?_, _, (same ▸ stands).trans passed, .inl (Stem.indicator opens).gate⟩
    have kept := saveKey_kept tracked saved
      ⟨if square then .openSquare else .openCurly, t.cursor.mark, (t.cursor.skip 1).mark⟩ more proper
      (.inl (.other other))
    rw [← keys] at kept
    exact kept

theorem closeBracket_tracked (tracked : Tracked text s) (closes : kind.closes = true)
    (done : s.closeBracket kind = .ok after) : Tracked text after := by
  unfold closeBracket at done
  split at done
  · cases done
  · rename_i t dropped
    extract_lets outside at done
    cases done
    have all := dropKey_tracked tracked dropped
    have keys : outside.pendingKeys.Sublist t.pendingKeys := by
      cases brackets : t.brackets with
      | nil => simp [outside, pendingKeys, brackets]
      | cons bracket outer =>
        cases key : bracket.outer <;> simp [outside, pendingKeys, brackets, key]
    exact takeShut_tracked (all.kept.fewer keys) all.leads rfl closes

/-- What a reader yields for a token that may be a key: an anchor is in its place, and a node may begin
behind the token unless it is one that no node follows. -/
structure Fits (text : List Char) (c : Cursor) (kind : Token.Kind) (d : Cursor) : Prop where
  more : kind ≠ .streamEnd
  proper : kind ≠ .comment
  gated : ∀ before, (Cursor.ofText text).Passes before c → Gate before →
    Gated text ⟨kind, c.mark, d.mark⟩
  behind : ∃ passed, c.Passes passed d ∧ (kind.opens = false ∨ ∀ before, Gate (before ++ passed))

theorem keyToken_tracked (tracked : Tracked text s)
    {read : Cursor → Except Failure (Token.Kind × Cursor)} (goesOn : s.cursor.peek ≠ nul)
    (fits : ∀ kind d, read s.cursor = .ok (kind, d) → Fits text s.cursor kind d)
    (done : s.keyToken read = .ok after) : Tracked text after := by
  unfold keyToken at done
  split at done
  · cases done
  · rename_i t saved
    split at done
    · cases done
    · rename_i kind d found
      cases done
      rw [saveKey_cursor saved] at found
      have ⟨more, proper, gated, passed, moved, behind⟩ := fits kind d found
      obtain ⟨before, stands, state⟩ := tracked.ready
      have placed : Gated text ⟨kind, s.cursor.mark, d.mark⟩ ∨
          (s.keyAllowed = false ∧ Shut s.tokens) := by
        rcases state with gate | ended | closed
        · exact .inl (gated before stands gate)
        · exact absurd ended goesOn
        · exact .inr closed
      have kept := saveKey_kept tracked saved _ more proper placed
      rw [← saveKey_cursor saved] at kept
      refine ⟨kept, _, stands.trans moved, ?_⟩
      obtain shuts | gate := behind
      · exact .inr (.inr ⟨rfl, .cons shuts proper⟩)
      · exact .inl (gate before)

theorem read_of_kind {α : Type} {result : Except Failure (α × Cursor)} {f : α → Token.Kind} {d : Cursor}
    (read : result.map (fun (a, after) => (f a, after)) = .ok (kind, d)) :
    ∃ a, result = .ok (a, d) ∧ kind = f a := by
  cases result with
  | error failure => cases read
  | ok found =>
    cases read
    exact ⟨_, rfl, rfl⟩

theorem readAnchor_fits {c d : Cursor} (ahead : c.peek = '&')
    (read : (readAnchor c).map (fun (name, after) => (.anchor name, after)) = .ok (kind, d)) :
    Fits text c kind d := by
  obtain ⟨name, named, rfl⟩ := read_of_kind read
  obtain ⟨moved, some, allowed⟩ := readAnchor_passes ahead named
  refine ⟨by simp, by simp, fun before stands gate _ same => ?_, _, moved, .inl rfl⟩
  cases same
  refine ⟨before, d.rest, ?_, congrArg Cursor.mark stands.reached, gate, some, allowed⟩
  have whole := (stands.trans moved).ahead
  simpa [Cursor.ofText] using whole

theorem readAlias_fits {c d : Cursor}
    (read : (readAnchor c).map (fun (name, after) => (.alias name, after)) = .ok (kind, d)) :
    Fits text c kind d := by
  obtain ⟨name, named, rfl⟩ := read_of_kind read
  obtain ⟨passed, moved⟩ := readAnchor_onward c _ _ named
  exact ⟨by simp, by simp, fun _ _ _ => .other rfl, passed, moved, .inl rfl⟩

theorem readQuoted_fits {c d : Cursor}
    (read : (readQuoted c).map (fun (text, after) => (.scalar .quoted text, after)) = .ok (kind, d)) :
    Fits text c kind d := by
  obtain ⟨scalar, found, rfl⟩ := read_of_kind read
  obtain ⟨passed, moved⟩ := readQuoted_onward c _ _ found
  exact ⟨by simp, by simp, fun _ _ _ => .other rfl, passed, moved, .inl rfl⟩

theorem readTag_fits {v : Version} {c d : Cursor} (ahead : c.peek = '!')
    (read : (readTag v c).map (fun (name, after) => (.tag name, after)) = .ok (kind, d)) :
    Fits text c kind d := by
  obtain ⟨name, named, rfl⟩ := read_of_kind read
  obtain ⟨word, moved, solid⟩ := readTag_spells v c _ _ named
  have marked : c.Passes ['!'] c.next := .peeked ahead (by decide)
  exact ⟨by simp, by simp, fun _ _ _ => .other rfl, '!' :: word, marked.trans moved,
    .inr fun before => (Stem.tag solid).gate⟩

/-- A node may begin on a fresh line. -/
theorem Ready.descends {c d : Cursor} {keyAllowed : Bool} {tokens : List Token}
    (leads : (Cursor.ofText text).Leads c) (descends : c.Descends d) :
    Ready text d keyAllowed tokens := by
  obtain ⟨before, stands⟩ := leads
  obtain ⟨passed, moved, ends⟩ := descends
  exact ⟨_, stands.trans moved, ends.imp (fun fresh => (fresh.append before).gate) .inl⟩

theorem plain_tracked (tracked : Tracked text s) (done : s.plain = .ok after) :
    Tracked text after := by
  unfold plain at done
  split at done
  · cases done
  · rename_i t saved
    extract_lets found at done
    cases done
    have kept := saveKey_kept tracked saved ⟨.scalar .plain found.text, t.cursor.mark, found.stop⟩
      (by simp) (by simp) (.inl (.other rfl))
    have leads : (Cursor.ofText text).Leads t.cursor := saveKey_cursor saved ▸ tracked.leads
    obtain ⟨⟨passed, moved⟩, fresh⟩ := readPlain_reaches t.version t.inFlow t.innerColumn t.cursor
    refine ⟨kept, ?_⟩
    cases allowed : found.fresh with
    | true => exact .descends leads (fresh allowed)
    | false =>
      obtain ⟨before, stands⟩ := leads
      exact ⟨_, stands.trans moved, .inr (.inr ⟨rfl, .cons rfl (by simp)⟩)⟩

theorem block_tracked (clean : nul ∉ text) (tracked : Tracked text s) {isFolded : Bool}
    (done : s.block isFolded = .ok after) : Tracked text after := by
  unfold block at done
  split at done
  · cases done
  · rename_i t dropped
    split at done
    · cases done
    · rename_i found read
      extract_lets kind pushed last at done
      cases done
      have all := dropKey_tracked tracked dropped
      have ready : Tracked text last :=
        ⟨all.kept.cons (.inl (.other rfl)) (by simp), .descends all.leads (readBlock_descends read)⟩
      split
      · obtain ⟨moved, tokens, count, keys⟩ := skipComments_moved (last.cursor.rest.length + 1) last
          (ready.leads.clean clean)
        refine ⟨?_, ready.ready.moved moved fun shut => by rwa [tokens]⟩
        rw [tokens, count, keys]
        exact ready.kept
      · exact ready

theorem directive_tracked (tracked : Tracked text s) (done : s.directive = .ok after) :
    Tracked text after := by
  unfold directive at done
  split at done
  · cases done
  · rename_i t dropped
    split at done
    · cases done
    · rename_i d rest read
      cases done
      have all := dropKey_tracked tracked.unwindAll dropped
      obtain ⟨passed, moved⟩ := readDirective_onward _ _ _ _ read
      obtain ⟨before, stands⟩ := all.leads
      exact ⟨all.kept.cons (.inl (.other rfl)) (by simp), _, stands.trans moved,
        .inr (.inr ⟨rfl, .cons rfl (by simp)⟩)⟩

/-- A token keeps the invariant, or is the last one, at the end of the text. -/
theorem token_tracked (clean : nul ∉ text) (tracked : Tracked text s) :
    ∀ after, s.token = .ok after →
      Tracked text after ∨ Finished text after ∧ after.cursor.peek = nul := by
  have key {read : Cursor → Except Failure (Token.Kind × Cursor)} {after : Lexing} {ch : Char}
      (ahead : s.cursor.peek = ch) (real : ch ≠ nul)
      (fits : ∀ kind d, read s.cursor = .ok (kind, d) → Fits text s.cursor kind d)
      (done : s.keyToken read = .ok after) :
      Tracked text after ∨ Finished text after ∧ after.cursor.peek = nul :=
    .inl (keyToken_tracked tracked (ahead ▸ real) fits done)
  fun_cases token s with
  | case1 =>
    rename_i ended
    exact fun _ done => .inr
      ⟨endStream_finished tracked done, (endStream_cursor done).symm ▸ beq_iff_eq.mp ended⟩
  | case2 => exact fun _ done => .inl (directive_tracked tracked done)
  | case3 =>
    rename_i marked
    rw [Bool.and_eq_true] at marked
    exact fun _ done => .inl (marker_tracked tracked marked.2 done)
  | case4 =>
    rename_i ahead
    exact fun _ done => .inl (openBracket_tracked tracked (beq_iff_eq.mp ahead) (by simp) done)
  | case5 =>
    rename_i ahead
    exact fun _ done => .inl (openBracket_tracked tracked (beq_iff_eq.mp ahead) (by simp) done)
  | case6 => exact fun _ done => .inl (closeBracket_tracked tracked rfl done)
  | case7 => exact fun _ done => .inl (closeBracket_tracked tracked rfl done)
  | case8 =>
    rename_i ahead
    exact fun _ done => .inl (comma_tracked tracked (beq_iff_eq.mp ahead) done)
  | case9 =>
    rename_i ahead
    rw [Bool.and_eq_true, beq_iff_eq] at ahead
    exact fun _ done => .inl (entry_tracked tracked ahead.1 done)
  | case10 =>
    rename_i ahead
    rw [Bool.and_eq_true, beq_iff_eq] at ahead
    exact fun _ done => .inl (explicitKey_tracked tracked ahead.1 done)
  | case11 =>
    rename_i ahead
    rw [Bool.and_eq_true, beq_iff_eq] at ahead
    exact fun _ done => .inl (value_tracked tracked ahead.1 done)
  | case12 =>
    rename_i ahead
    exact fun _ done => key (beq_iff_eq.mp ahead) (by decide) (fun _ _ => readAlias_fits) done
  | case13 =>
    rename_i ahead
    have here := beq_iff_eq.mp ahead
    exact fun _ done => key here (by decide) (fun _ _ => readAnchor_fits here) done
  | case14 =>
    rename_i ahead
    have here := beq_iff_eq.mp ahead
    exact fun _ done => key here (by decide) (fun _ _ => readTag_fits here) done
  | case15 => exact fun _ done => .inl (block_tracked clean tracked done)
  | case16 =>
    rename_i ahead
    rw [Bool.or_eq_true, beq_iff_eq, beq_iff_eq] at ahead
    obtain single | double := ahead
    · exact fun _ done => key single (by decide) (fun _ _ => readQuoted_fits) done
    · exact fun _ done => key double (by decide) (fun _ _ => readQuoted_fits) done
  | case17 => exact fun _ done => .inl (plain_tracked tracked done)
  | case18 => rintro _ ⟨⟩

theorem Finished.isDone (finished : Finished text s) : s.isDone = true := by
  obtain ⟨last, past, same, ending, -⟩ := finished
  simp [Lexing.isDone, same, ending]

theorem step_tracked (clean : nul ∉ text) (tracked : Tracked text s) :
    ∀ after, s.step = .ok after →
      Tracked text after ∨ Finished text after ∧ after.cursor.peek = nul := by
  have nears := approach_nears (s.cursor.rest.length + 1) s (tracked.leads.clean clean)
  fun_cases step s with
  | case1 near read =>
    rw [read] at nears
    exact fun _ done => .inl (dropStale_tracked (tracked.nears nears) done)
  | case2 | case3 => rintro _ ⟨⟩
  | case4 near found read _ t dropped last taken =>
    rw [read] at nears
    rintro _ ⟨⟩
    exact token_tracked clean (dropStale_tracked (tracked.nears nears) dropped).unwind last taken
  | case5 near found read _ t dropped last taken goesOn =>
    rw [read] at nears
    intro after done
    have all := dropStale_tracked (tracked.nears nears) dropped
    obtain further | ⟨finished, _⟩ := token_tracked clean all.unwind last taken
    · exact .inl (dropStale_tracked further done)
    · exact absurd finished.isDone goesOn

end Lexing

/-- Some tokens do not reach the end of a text, or they end with it and every anchor among them stands
where a node may begin or behind a token that no node follows. -/
def Ordered (text : List Char) (tokens : List Token) : Prop :=
  (∀ token ∈ tokens, token.kind ≠ .streamEnd) ∨
    ∃ past last, tokens = past.reverse ++ [last] ∧ last.kind = .streamEnd ∧
      (∀ token ∈ past, token.kind ≠ .streamEnd) ∧ Placed text past

namespace Lexing

theorem Tracked.goesOn {text : List Char} {s : Lexing} (tracked : Tracked text s) :
    ¬ s.isDone = true := by
  intro done
  unfold isDone at done
  cases left : s.tokens with
  | nil => simp [left] at done
  | cons last past =>
    have ending : last.kind = .streamEnd := by simpa [left] using done
    exact tracked.kept.unended last (by simp [left]) ending

theorem Tracked.known_unended {text : List Char} {s : Lexing} (tracked : Tracked text s) :
    ∀ token ∈ s.known, token.kind ≠ .streamEnd := by
  intro token among
  have inside := List.mem_of_mem_filter among
  exact tracked.kept.unended token (List.mem_of_mem_drop (List.mem_reverse.mp inside))

theorem Finished.proper {text : List Char} {s : Lexing} (finished : Finished text s) :
    Ordered text (proper s.tokens) := by
  obtain ⟨last, past, same, ending, placed, unended⟩ := finished
  refine .inr ⟨past.filter (·.kind ≠ .comment), last, ?_, ending, ?_, placed.filter⟩
  · simp [Lexing.proper, same, ending, List.filter_reverse]
  · exact fun token among => unended token (List.mem_of_mem_filter among)

/-- Splitting a text keeps the invariant to the end. -/
theorem run_ordered {text : List Char} (clean : nul ∉ text) (fuel : Nat) (s : Lexing)
    (tracked : Tracked text s) : Ordered text (s.run fuel).tokens := by
  fun_induction run fuel s with
  | case1 | case2 => exact .inl tracked.known_unended
  | case3 _ s after stepped done =>
    obtain further | ⟨finished, _⟩ := step_tracked clean tracked after stepped
    · exact absurd done further.goesOn
    · exact finished.proper
  | case4 _ s after stepped goesOn ih =>
    obtain further | ⟨finished, _⟩ := step_tracked clean tracked after stepped
    · exact ih further
    · exact absurd finished.isDone goesOn

end Lexing

/-- Unless a text has a character that is not allowed, its splitting starts at the beginning or behind a
byte order mark there. -/
theorem TokenStream.ofText_start (text : List Char) :
    (TokenStream.ofText text).tokens = [] ∨ nul ∉ text ∧ ∃ s marks,
      TokenStream.ofText text = s.run (text.length + 2) ∧ Lexing.Tracked text s ∧ s.tokens = [] ∧
      (Cursor.ofText text).Passes marks s.cursor ∧ (marks = [] ∨ marks = ['\uFEFF']) := by
  unfold TokenStream.ofText
  split
  · exact .inl rfl
  · rename_i allowed
    have clean : nul ∉ text := by
      intro among
      have := List.find?_eq_none.mp allowed nul among
      exact this (by decide)
    dsimp only
    split
    · rename_i mark
      have passed : (Cursor.ofText text).Passes ['\uFEFF'] _ := .peeked (beq_iff_eq.mp mark) (by decide)
      exact .inr ⟨clean, _, _, rfl, ⟨.nil text, _, passed, .inl Stem.byteOrderMark.gate⟩, rfl, passed,
        .inr rfl⟩
    · have here : (Cursor.ofText text).Passes [] (Lexing.ofText text).cursor := .refl _
      exact .inr ⟨clean, _, _, rfl, ⟨.nil text, _, here, .inl Stem.start.gate⟩, rfl, here, .inl rfl⟩

/-- The anchors of a text are in their places, as far as its tokens tell. -/
theorem TokenStream.ofText_ordered (text : List Char) :
    Ordered text (TokenStream.ofText text).tokens := by
  obtain none | ⟨clean, s, _, run, tracked, _⟩ := TokenStream.ofText_start text
  · exact .inl (by simp [none])
  · rw [run]
    exact Lexing.run_ordered clean _ s tracked

/-- Where the nodes of a text are read, every anchor among its tokens stands in the text where a node may
begin. -/
theorem Node.ofText_gated {depth : Int} {text : List Char} {version : Version} {root : Option Node}
    (read : Node.ofText depth text = .ok (version, root)) :
    ∀ token ∈ (TokenStream.ofText text).tokens, Gated text token := by
  obtain ⟨seen, ending, rest, tokens, isEnding, seated⟩ := Node.ofText_seated read
  obtain unended | ⟨past, last, same, isLast, unended, placed⟩ := TokenStream.ofText_ordered text
  · exact absurd isEnding (unended ending (by simp [tokens]))
  · have joined : seen.reverse ++ ending :: rest = past.reverse ++ [last] := tokens.symm.trans same
    obtain rfl | ⟨middle, final, rfl⟩ := rest.eq_nil_or_concat'
    · obtain ⟨before, _⟩ := List.append_inj' joined rfl
      have gated := placed.gated (List.reverse_injective before ▸ seated)
      simp only [same, List.mem_append, List.mem_reverse, List.mem_singleton]
      rintro token (among | rfl)
      · exact gated token among
      · exact .other (by rw [isLast]; rfl)
    · have split : (seen.reverse ++ ending :: middle) ++ [final] = past.reverse ++ [last] := by
        simpa using joined
      have inner := (List.append_inj' split rfl).1
      refine absurd isEnding (unended ending ?_)
      rw [← List.mem_reverse, ← inner]
      simp

end PayloadCheck.Yaml
