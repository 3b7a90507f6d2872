import PayloadCheck.Proofs.Yaml.Tracking

namespace PayloadCheck.Yaml

/-- An anchor, or an alias of one. -/
def Token.Kind.isReference : Token.Kind → Bool
  | .alias _ => true
  | .anchor _ => true
  | _ => false

/-- A scalar, or a tag or directive about one. -/
def Token.Kind.isContent : Token.Kind → Bool
  | .directive _ => true
  | .tag _ => true
  | .scalar _ _ => true
  | _ => false

/-- A token that takes up text of the writer's choice. -/
def Token.Kind.isWord (kind : Token.Kind) : Bool := kind.isReference || kind.isContent

def words (tokens : List Token) : List Token := tokens.filter (·.kind.isWord)

theorem words_cons_word {token : Token} {tokens : List Token} (isWord : token.kind.isWord = true) :
    words (token :: tokens) = token :: words tokens :=
  List.filter_cons_of_pos isWord

theorem words_cons_other {token : Token} {tokens : List Token} (other : token.kind.isWord = false) :
    words (token :: tokens) = words tokens :=
  List.filter_cons_of_neg (by rw [other]; decide)

/-- The beginning of a text is made of what words take up, the last one first, of comments, and of other
text without ampersands. -/
inductive Covered (text : List Char) : List Token → List Char → Prop
  | nil : Covered text [] []
  | gap {taken : List Token} {before gap : List Char} :
      Covered text taken before → '&' ∉ gap → Covered text taken (before ++ gap)
  | comment {taken : List Token} {before line : List Char} :
      Covered text taken before → line.all (!endsLine ·) = true →
      Covered text taken (before ++ '#' :: line)
  | word {taken : List Token} {before piece : List Char} {token : Token} :
      Covered text taken before → token.start = ((Cursor.ofText text).skip before.length).mark →
      token.stop = ((Cursor.ofText text).skip (before ++ piece).length).mark →
      Covered text (token :: taken) (before ++ piece)

/-- A character behind a part of a text stands in a comment, or in what one of some words takes up. -/
inductive Within (text : List Char) (taken : List Token) (front : List Char) : Prop
  | comment {earlier : List Token} {stem line : List Char} :
      Covered text earlier stem → front = stem ++ '#' :: line → line.all (!endsLine ·) = true →
      Within text taken front
  | word {earlier : List Token} {stem piece : List Char} {token : Token} :
      token ∈ taken → Covered text earlier stem →
      token.start = ((Cursor.ofText text).skip stem.length).mark →
      token.stop = ((Cursor.ofText text).skip (stem ++ piece).length).mark →
      stem.length ≤ front.length → front.length < (stem ++ piece).length → Within text taken front

theorem Within.more {text front : List Char} {taken : List Token} (token : Token) :
    Within text taken front → Within text (token :: taken) front
  | .comment stands split line => .comment stands split line
  | .word among stands start stop behind before =>
    .word (List.mem_cons_of_mem _ among) stands start stop behind before

/-- Of two parts that make up a text with an ampersand the one or the other has it. -/
theorem ampersand_split {before piece front rest : List Char}
    (split : before ++ piece = front ++ '&' :: rest) :
    (∃ after, before = front ++ '&' :: after) ∨
      ∃ more, front = before ++ more ∧ piece = more ++ '&' :: rest := by
  rcases List.append_eq_append_iff.mp split with ⟨more, rfl, same⟩ | ⟨after, rfl, same⟩
  · exact Or.inr ⟨more, rfl, same⟩
  · cases after with
    | nil => exact Or.inr ⟨[], by simp, by simpa using same.symm⟩
    | cons ch after =>
      obtain ⟨rfl, -⟩ := List.cons.inj same
      exact Or.inl ⟨after, rfl⟩

/-- An ampersand in covered text stands in a comment or a word. -/
theorem Covered.ampersand {text before front rest : List Char} {taken : List Token}
    (covered : Covered text taken before) (split : before = front ++ '&' :: rest) :
    Within text taken front := by
  induction covered generalizing rest with
  | nil => simp at split
  | gap _ free ih =>
    rcases ampersand_split split with ⟨after, earlier⟩ | ⟨more, _, inside⟩
    · exact ih earlier
    · exact absurd (by simp [inside]) free
  | @comment _ stem line stands whole ih =>
    rcases ampersand_split split with ⟨after, earlier⟩ | ⟨more, rfl, inside⟩
    · exact ih earlier
    · cases more with
      | nil => exact nomatch inside
      | cons ch more =>
        rw [List.cons_append] at inside
        obtain ⟨rfl, rfl⟩ := List.cons.inj inside
        rw [List.all_append, Bool.and_eq_true] at whole
        exact .comment stands rfl whole.1
  | @word _ stem piece token stands start stop ih =>
    rcases ampersand_split split with ⟨after, earlier⟩ | ⟨more, rfl, inside⟩
    · exact (ih earlier).more token
    · refine .word List.mem_cons_self stands start stop ?_ ?_
      · simp
      · simp [inside]

/-- Only blanks and breaks lie between two places. -/
def Cursor.Spaced (c d : Cursor) : Prop :=
  ∃ gap, c.Passes gap d ∧ gap.all (fun ch => isBlank ch || isBreak ch) = true

namespace Cursor.Spaced

variable {c d e : Cursor}

theorem refl (c : Cursor) : c.Spaced c := ⟨[], .refl c, rfl⟩

theorem trans : c.Spaced d → d.Spaced e → c.Spaced e
  | ⟨_, first, spacing⟩, ⟨_, second, further⟩ =>
    ⟨_, first.trans second, by rw [List.all_append, spacing, further]; rfl⟩

theorem leads : c.Spaced d → c.Leads d
  | ⟨gap, moved, _⟩ => ⟨gap, moved⟩

theorem ofBlanks {blanks : List Char} (moved : c.Passes blanks d) (blank : blanks.all isBlank = true) :
    c.Spaced d := by
  refine ⟨blanks, moved, List.all_eq_true.mpr fun ch among => ?_⟩
  rw [List.all_eq_true.mp blank ch among]
  rfl

theorem spaces (c : Cursor) : c.Spaced (c.skipWhile (· == ' ')) := .ofBlanks (.skipWhile c _) (run_spaces c)

theorem spacing (c : Cursor) : c.Spaced (c.skipWhile fun ch => isBlank ch || isBreak ch) :=
  ⟨_, .skipWhile c _, List.all_takeWhile⟩

theorem lineBreak {ch : Char} (broken : c.lineBreak? = some (ch, d)) : c.Spaced d := by
  obtain ⟨front, last, moved, breaks⟩ := lineBreak_passes broken
  refine ⟨_, moved, List.all_eq_true.mpr fun ch among => ?_⟩
  rw [List.all_eq_true.mp breaks ch among, Bool.or_true]

theorem breaksTo (c : Cursor) (column fuel : Nat) : c.Spaced (c.breaksTo column fuel).2 := by
  fun_induction Cursor.breaksTo column fuel c with
  | case1 c => exact .refl c
  | case2 _ c => exact .refl c
  | case3 _ c ch after broken others rest read ih =>
    obtain ⟨blanks, moved, blank⟩ := after.indentTo_passes column
    rw [read] at ih
    exact ((lineBreak broken).trans (.ofBlanks moved blank)).trans ih

theorem blankLines (c : Cursor) (fuel : Nat) : c.Spaced (blankLines fuel c).2 := by
  fun_induction Yaml.blankLines fuel c with
  | case1 c => exact .refl c
  | case2 _ c => exact .spaces c
  | case3 _ c _ _ _ broken => exact (spaces c).trans (lineBreak broken)
  | case4 _ c _ _ after broken _ others rest read ih =>
    rw [read] at ih
    exact ((spaces c).trans (lineBreak broken)).trans ih

theorem plainGap (c : Cursor) : c.Spaced (plainGap c).rest := by
  have here : c.Spaced (c.skipWhile (· == ' ')) := .spaces c
  fun_cases Yaml.plainGap c with
  | case1 => exact here
  | case2 _ _ _ _ broken => exact here.trans (.lineBreak broken)
  | case3 _ _ _ after broken _ rest blank =>
    have below := blankLines after (after.rest.length + 1)
    rw [blank] at below
    exact (here.trans (.lineBreak broken)).trans below
  | case4 _ _ _ after broken _ breaks rest blank =>
    have below := blankLines after (after.rest.length + 1)
    rw [blank] at below
    exact (here.trans (.lineBreak broken)).trans below

end Cursor.Spaced

/-- A place behind a cursor with a mark, where nothing but spacing is left to another cursor. -/
def Cursor.StopsAt (c : Cursor) (stop : Mark) (d : Cursor) : Prop :=
  ∃ e, c.Leads e ∧ e.mark = stop ∧ e.Spaced d

theorem plainWords_stops {b : Cursor} (v : Version) (inFlow : Bool) (indent fuel : Nat) (stop : Mark)
    (gap : PlainGap) (stops : b.StopsAt stop gap.rest) :
    b.StopsAt (plainWords v inFlow indent fuel stop gap).stop
      (plainWords v inFlow indent fuel stop gap).rest := by
  have onward {stop : Mark} {gap : PlainGap} (stops : b.StopsAt stop gap.rest) (length : Nat) :
      b.StopsAt (gap.rest.skip length).mark (plainGap (gap.rest.skip length)).rest := by
    obtain ⟨e, leads, _, spaced⟩ := stops
    exact ⟨gap.rest.skip length, (leads.trans spaced.leads).trans (.skip _ _), rfl, .plainGap _⟩
  fun_induction plainWords v inFlow indent fuel stop gap with
  | case1 | case2 => exact stops
  | case3 => exact onward stops _
  | case4 _ _ _ _ _ _ _ _ _ _ ih => exact ih (onward stops _)

theorem readPlain_stops (v : Version) (inFlow : Bool) (indent : Nat) (c : Cursor) :
    c.StopsAt (readPlain v inFlow indent c).stop (readPlain v inFlow indent c).rest :=
  plainWords_stops v inFlow indent _ _ _ ⟨c, .refl c, rfl, .refl c⟩

namespace Lexing

/-- The text before a place is covered by the words among some tokens. -/
def Covers (text : List Char) (tokens : List Token) (c : Cursor) : Prop :=
  ∃ before, (Cursor.ofText text).Passes before c ∧ Covered text (words tokens) before

variable {text : List Char} {tokens later : List Token} {token : Token} {kind : Token.Kind}
  {c d : Cursor} {s t near after : Lexing}

theorem Covers.leads (covers : Covers text tokens c) : (Cursor.ofText text).Leads c := by
  obtain ⟨before, stands, _⟩ := covers
  exact ⟨before, stands⟩

theorem Covers.same (covers : Covers text tokens c) (same : words later = words tokens) :
    Covers text later c := by
  obtain ⟨before, stands, covered⟩ := covers
  exact ⟨before, stands, same ▸ covered⟩

theorem Covers.gap {gap : List Char} (covers : Covers text tokens c) (moved : c.Passes gap d)
    (free : '&' ∉ gap) : Covers text tokens d := by
  obtain ⟨before, stands, covered⟩ := covers
  exact ⟨_, stands.trans moved, .gap covered free⟩

theorem Covers.spaced (covers : Covers text tokens c) (spaced : c.Spaced d) : Covers text tokens d := by
  obtain ⟨gap, moved, spacing⟩ := spaced
  refine covers.gap moved fun among => ?_
  exact absurd (List.all_eq_true.mp spacing '&' among) (by decide)

theorem Covers.word {piece : List Char} (covers : Covers text tokens c) (isWord : token.kind.isWord = true)
    (moved : c.Passes piece d) (start : token.start = c.mark) (stop : token.stop = d.mark) :
    Covers text (token :: tokens) d := by
  obtain ⟨before, stands, covered⟩ := covers
  have whole := stands.trans moved
  refine ⟨_, whole, ?_⟩
  rw [words_cons_word isWord]
  exact .word covered (start.trans (congrArg Cursor.mark stands.reached))
    (stop.trans (congrArg Cursor.mark whole.reached))

theorem Covers.other (covers : Covers text tokens c) (other : token.kind.isWord = false) :
    Covers text (token :: tokens) c :=
  covers.same (words_cons_other other)

theorem Covers.lineEnd (covers : Covers text tokens c) (ended : endsLine c.peek = true) :
    Covers text tokens c.next := by
  refine covers.gap (.skip c 1) fun among => ?_
  cases left : c.rest with
  | nil => simp [left] at among
  | cons ch rest =>
    obtain rfl : '&' = ch := by simpa [left] using among
    rw [Cursor.peek_of_rest left] at ended
    exact absurd ended (by decide)

/-- A comment takes up its line, and spacing follows. -/
theorem Covers.comment (covers : Covers text tokens c) (mark : c.peek = '#') :
    Covers text tokens (commentEnd c) := by
  have line : Covers text tokens (c.skipWhile (!endsLine ·)) := by
    obtain ⟨before, stands, covered⟩ := covers
    refine ⟨_, stands.trans (.skipWhile c (!endsLine ·)), ?_⟩
    cases left : c.rest with
    | nil => simp [Cursor.peek, left, nul] at mark
    | cons ch others =>
      obtain rfl : ch = '#' := (Cursor.peek_of_rest left).symm.trans mark
      rw [Cursor.run, left, List.takeWhile_cons_of_pos (by decide)]
      exact .comment covered List.all_takeWhile
  exact (line.lineEnd (Cursor.endsLine_skipWhile c)).spaced (.breaksTo _ 0 _)

theorem approach_covers (fuel : Nat) (s : Lexing) (covers : Covers text tokens s.cursor) :
    Covers text tokens (s.approach fuel).1.cursor := by
  fun_induction approach fuel s with
  | case1 => exact covers
  | case2 _ s c comment mark =>
    obtain ⟨blanks, moved, blank⟩ := s.skipBlanks_passes
    exact (covers.spaced (.ofBlanks moved blank)).comment (beq_iff_eq.mp mark)
  | case3 _ s =>
    obtain ⟨blanks, moved, blank⟩ := s.skipBlanks_passes
    exact covers.spaced (.ofBlanks moved blank)
  | case4 _ s _ _ _ _ broken =>
    obtain ⟨blanks, moved, blank⟩ := s.skipBlanks_passes
    exact ((covers.spaced (.ofBlanks moved blank)).spaced (.lineBreak broken)).spaced (.spacing _)
  | case5 _ s _ _ _ after broken _ ih =>
    obtain ⟨blanks, moved, blank⟩ := s.skipBlanks_passes
    exact ih ((covers.spaced (.ofBlanks moved blank)).spaced (.lineBreak broken))

theorem skipComments_covers (fuel : Nat) (s : Lexing) (covers : Covers text s.tokens s.cursor) :
    Covers text (s.skipComments fuel).tokens (s.skipComments fuel).cursor := by
  fun_induction skipComments fuel s with
  | case1 => exact covers
  | case2 _ s near after read ih =>
    have there := approach_covers (s.cursor.rest.length + 1) s covers
    rw [read] at there
    exact ih there
  | case3 _ s near found read after =>
    have there := approach_covers (s.cursor.rest.length + 1) s covers
    rw [read] at there
    exact there

/-- A step adds tokens that are no words and stays where it is. -/
def Stays (s after : Lexing) : Prop := words after.tokens = words s.tokens ∧ after.cursor = s.cursor

theorem Stays.refl (s : Lexing) : Stays s s := ⟨rfl, rfl⟩

theorem Stays.trans (first : Stays s t) (second : Stays t after) : Stays s after :=
  ⟨second.1.trans first.1, second.2.trans first.2⟩

theorem Stays.covers (stays : Stays s after) (covers : Covers text s.tokens s.cursor) :
    Covers text after.tokens after.cursor := by
  rw [stays.2]
  exact covers.same stays.1

theorem dropKey_stays (done : s.dropKey = .ok after) : Stays s after := by
  unfold dropKey at done
  split at done
  · cases done
  · cases done
    exact .refl _

theorem dropStale_stays (done : s.dropStale = .ok after) : Stays s after := by
  unfold dropStale at done
  split at done
  · cases done
  · cases done
    exact .refl _

theorem saveKey_stays (done : s.saveKey = .ok after) : Stays s after := by
  obtain ⟨_, rfl⟩ | ⟨_, _, _, rfl⟩ := saveKey_ok done <;> exact .refl _

theorem pushHere_stays (s : Lexing) (other : kind.isWord = false) : Stays s (s.pushHere kind) :=
  ⟨words_cons_other other, rfl⟩

theorem unwindTo_stays (column : Nat) (indents : List Nat) (s : Lexing) :
    Stays s (unwindTo column indents s) := by
  fun_induction Lexing.unwindTo column indents s with
  | case1 => exact ⟨rfl, rfl⟩
  | case2 _ _ _ _ ih => exact (pushHere_stays _ rfl).trans ih
  | case3 => exact ⟨rfl, rfl⟩

theorem unwind_stays (s : Lexing) : Stays s s.unwind := by
  unfold Lexing.unwind
  split
  · exact .refl s
  · exact unwindTo_stays _ _ s

theorem unwindAll_stays (s : Lexing) : Stays s s.unwindAll := by
  have closed (indents : List Nat) (s : Lexing) :
      Stays s (indents.foldl (fun s _ => s.pushHere .blockEnd) s) := by
    induction indents generalizing s with
    | nil => exact .refl s
    | cons _ _ ih => exact (pushHere_stays s rfl).trans (ih _)
  unfold Lexing.unwindAll
  split
  · exact .refl s
  · exact closed s.indents s

theorem openBlock_stays (s : Lexing) (other : kind.isWord = false) : Stays s (s.openBlock kind) := by
  unfold Lexing.openBlock
  split
  · exact pushHere_stays s other
  · exact .refl s

theorem openOutside_stays (s : Lexing) (other : kind.isWord = false) :
    Stays s (if s.inFlow then s else s.openBlock kind) := by
  split
  · exact .refl s
  · exact openBlock_stays s other

/-- Keys that are inserted are no words. -/
theorem insertAt_stays (s : Lexing) (number : Nat) {added : List Token} (others : words added = []) :
    Stays s (s.insertAt number added) := by
  refine ⟨?_, rfl⟩
  have none : added.reverse.filter (·.kind.isWord) = [] := by
    rw [List.filter_reverse]
    exact congrArg List.reverse others
  have split := congrArg words (List.take_append_drop (s.count - number) s.tokens)
  rw [← split]
  simp only [insertAt, words, List.filter_append, none, List.append_nil]

theorem completeKey_stays (s : Lexing) (key : PendingKey) : Stays s (s.completeKey key) := by
  unfold completeKey
  dsimp only
  split
  · exact insertAt_stays s key.number rfl
  · exact insertAt_stays s key.number rfl

theorem take_covers {length : Nat} (covers : Covers text s.tokens s.cursor) (stays : Stays s t)
    (other : kind.isWord = false) (free : '&' ∉ s.cursor.rest.take length) :
    Covers text (t.take kind length).tokens (t.take kind length).cursor := by
  rw [← stays.2] at free
  exact ((stays.covers covers).gap (.skip t.cursor length) free).other other

/-- An indicator of one character is no word, and no ampersand. -/
theorem takeIndicator_covers (covers : Covers text s.tokens s.cursor) (stays : Stays s t)
    (ahead : s.cursor.peek ≠ '&') (other : kind.isWord = false) :
    Covers text (t.take kind 1).tokens (t.take kind 1).cursor := by
  refine take_covers covers stays other fun among => ahead ?_
  cases left : s.cursor.rest with
  | nil => simp [left] at among
  | cons ch rest =>
    obtain rfl : '&' = ch := by simpa [left] using among
    exact Cursor.peek_of_rest left

/-- A token that is a word takes up what its reader passes. -/
theorem push_covers (covers : Covers text s.tokens s.cursor) (stays : Stays s t)
    (isWord : kind.isWord = true) (leads : t.cursor.Leads d) :
    Covers text (⟨kind, t.cursor.mark, d.mark⟩ :: t.tokens) d := by
  obtain ⟨piece, moved⟩ := leads
  exact (stays.covers covers).word isWord moved rfl rfl

theorem endStream_covers (covers : Covers text s.tokens s.cursor) (done : s.endStream = .ok after) :
    Covers text after.tokens after.cursor := by
  unfold endStream at done
  split at done
  · cases done
  · rename_i dropped
    cases done
    exact (((unwindAll_stays s).trans (dropKey_stays dropped)).covers covers).other rfl

theorem directive_covers (covers : Covers text s.tokens s.cursor) (done : s.directive = .ok after) :
    Covers text after.tokens after.cursor := by
  unfold directive at done
  split at done
  · cases done
  · rename_i t dropped
    split at done
    · cases done
    · rename_i d rest read
      cases done
      exact push_covers covers ((unwindAll_stays s).trans (dropKey_stays dropped)) rfl
        (readDirective_onward _ _ _ _ read)

theorem marker_covers (covers : Covers text s.tokens s.cursor) (marked : s.cursor.atMarker = true)
    (other : kind.isWord = false) (done : s.marker kind = .ok after) :
    Covers text after.tokens after.cursor := by
  have free : '&' ∉ s.cursor.rest.take 3 := by
    simp only [Cursor.atMarker, Bool.and_eq_true, Bool.or_eq_true, List.isPrefixOf_iff_prefix] at marked
    obtain ⟨rest, whole⟩ | ⟨rest, whole⟩ := marked.1
    · rw [← whole]
      simp
    · rw [← whole]
      simp
  unfold marker at done
  split at done
  · cases done
  · rename_i t dropped
    cases done
    have stays := (unwindAll_stays s).trans (dropKey_stays dropped)
    exact take_covers covers stays other free

theorem openBracket_covers {square : Bool} (covers : Covers text s.tokens s.cursor)
    (ahead : s.cursor.peek ≠ '&') (done : s.openBracket square = .ok after) :
    Covers text after.tokens after.cursor := by
  unfold openBracket at done
  split at done
  · cases done
  · rename_i t saved
    cases done
    have stays := saveKey_stays saved
    exact takeIndicator_covers covers stays ahead (by cases square <;> rfl)

theorem closeBracket_covers (covers : Covers text s.tokens s.cursor) (ahead : s.cursor.peek ≠ '&')
    (other : kind.isWord = false) (done : s.closeBracket kind = .ok after) :
    Covers text after.tokens after.cursor := by
  unfold closeBracket at done
  split at done
  · cases done
  · rename_i t dropped
    cases done
    have stays := dropKey_stays dropped
    exact takeIndicator_covers covers stays ahead other

theorem comma_covers (covers : Covers text s.tokens s.cursor) (ahead : s.cursor.peek ≠ '&')
    (done : s.comma = .ok after) : Covers text after.tokens after.cursor := by
  unfold comma at done
  split at done
  · cases done
  · rename_i t dropped
    cases done
    have stays := dropKey_stays dropped
    exact takeIndicator_covers covers stays ahead rfl

theorem entry_covers (covers : Covers text s.tokens s.cursor) (ahead : s.cursor.peek ≠ '&')
    (done : s.entry = .ok after) : Covers text after.tokens after.cursor := by
  unfold entry at done
  split at done
  · cases done
  · extract_lets opened at done
    split at done
    · cases done
    · rename_i t dropped
      cases done
      have stays : Stays s t := (openOutside_stays s rfl).trans (dropKey_stays dropped)
      exact takeIndicator_covers covers stays ahead rfl

theorem explicitKey_covers (covers : Covers text s.tokens s.cursor) (ahead : s.cursor.peek ≠ '&')
    (done : s.explicitKey = .ok after) : Covers text after.tokens after.cursor := by
  unfold explicitKey at done
  split at done
  · cases done
  · extract_lets opened at done
    split at done
    · cases done
    · rename_i t dropped
      cases done
      have stays : Stays s t := (openOutside_stays s rfl).trans (dropKey_stays dropped)
      exact takeIndicator_covers covers stays ahead rfl

theorem value_covers (covers : Covers text s.tokens s.cursor) (ahead : s.cursor.peek ≠ '&')
    (done : s.value = .ok after) : Covers text after.tokens after.cursor := by
  unfold value at done
  split at done
  · rename_i key pending
    cases done
    exact takeIndicator_covers covers
      (completeKey_stays { s with pending := none, keyAllowed := false } key) ahead rfl
  · split at done
    · cases done
    · cases done
      exact takeIndicator_covers covers (openOutside_stays s rfl) ahead rfl

theorem keyToken_covers {read : Cursor → Except Failure (Token.Kind × Cursor)}
    (covers : Covers text s.tokens s.cursor)
    (onward : ∀ kind d, read s.cursor = .ok (kind, d) → kind.isWord = true ∧ s.cursor.Leads d)
    (done : s.keyToken read = .ok after) : Covers text after.tokens after.cursor := by
  unfold keyToken at done
  split at done
  · cases done
  · rename_i t saved
    split at done
    · cases done
    · rename_i kind d found
      cases done
      have stays := saveKey_stays saved
      rw [stays.2] at found
      obtain ⟨isWord, leads⟩ := onward kind d found
      exact push_covers covers stays isWord (stays.2 ▸ leads)

theorem plain_covers (covers : Covers text s.tokens s.cursor) (done : s.plain = .ok after) :
    Covers text after.tokens after.cursor := by
  unfold plain at done
  split at done
  · cases done
  · rename_i t saved
    extract_lets found at done
    cases done
    obtain ⟨d, leads, stops, spaced⟩ := readPlain_stops t.version t.inFlow t.innerColumn t.cursor
    have word : Covers text (⟨.scalar .plain found.text, t.cursor.mark, d.mark⟩ :: t.tokens) d :=
      push_covers covers (saveKey_stays saved) rfl leads
    rw [stops] at word
    exact word.spaced spaced

theorem block_covers {isFolded : Bool} (covers : Covers text s.tokens s.cursor)
    (done : s.block isFolded = .ok after) : Covers text after.tokens after.cursor := by
  unfold block at done
  split at done
  · cases done
  · rename_i t dropped
    split at done
    · cases done
    · rename_i found read
      extract_lets kind pushed last at done
      cases done
      have word : Covers text last.tokens last.cursor :=
        push_covers covers (dropKey_stays dropped) rfl (readBlock_descends read).leads
      split
      · exact skipComments_covers _ last word
      · exact word

theorem isWord_of_read {α : Type} {result : Except Failure (α × Cursor)} {f : α → Token.Kind}
    (isWord : ∀ a, (f a).isWord = true) (onward : Onward c result) (kind : Token.Kind) (d : Cursor)
    (read : result.map (fun (a, after) => (f a, after)) = .ok (kind, d)) :
    kind.isWord = true ∧ c.Leads d := by
  obtain ⟨a, found, rfl⟩ := read_of_kind read
  exact ⟨isWord a, onward a d found⟩

/-- A token goes on covering the text. -/
theorem token_covers (covers : Covers text s.tokens s.cursor) :
    ∀ after, s.token = .ok after → Covers text after.tokens after.cursor := by
  have notAmpersand {ch : Char} (ahead : (s.cursor.peek == ch) = true) (other : ch ≠ '&') :
      s.cursor.peek ≠ '&' := beq_iff_eq.mp ahead ▸ other
  fun_cases token s with
  | case1 => exact fun _ => endStream_covers covers
  | case2 => exact fun _ => directive_covers covers
  | case3 =>
    rename_i marked
    rw [Bool.and_eq_true] at marked
    exact fun _ => marker_covers covers marked.2 (by split <;> rfl)
  | case4 | case5 =>
    rename_i ahead
    exact fun _ => openBracket_covers covers (notAmpersand ahead (by decide))
  | case6 | case7 =>
    rename_i ahead
    exact fun _ => closeBracket_covers covers (notAmpersand ahead (by decide)) rfl
  | case8 =>
    rename_i ahead
    exact fun _ => comma_covers covers (notAmpersand ahead (by decide))
  | case9 =>
    rename_i ahead
    rw [Bool.and_eq_true] at ahead
    exact fun _ => entry_covers covers (notAmpersand ahead.1 (by decide))
  | case10 =>
    rename_i ahead
    rw [Bool.and_eq_true] at ahead
    exact fun _ => explicitKey_covers covers (notAmpersand ahead.1 (by decide))
  | case11 =>
    rename_i ahead
    rw [Bool.and_eq_true] at ahead
    exact fun _ => value_covers covers (notAmpersand ahead.1 (by decide))
  | case12 | case13 =>
    exact fun _ => keyToken_covers covers (isWord_of_read (fun _ => rfl) (readAnchor_onward _))
  | case14 =>
    have onward : Onward s.cursor (readTag s.version s.cursor) := .after (.next _) (readTag_spells _ _).onward
    exact fun _ => keyToken_covers covers (isWord_of_read (fun _ => rfl) onward)
  | case15 => exact fun _ => block_covers covers
  | case16 => exact fun _ => keyToken_covers covers (isWord_of_read (fun _ => rfl) (readQuoted_onward _))
  | case17 => exact fun _ => plain_covers covers
  | case18 => rintro _ ⟨⟩

theorem step_covers (clean : nul ∉ text) (covers : Covers text s.tokens s.cursor) :
    ∀ after, s.step = .ok after → Covers text after.tokens after.cursor := by
  have nears := approach_nears (s.cursor.rest.length + 1) s (covers.leads.clean clean)
  have there : Covers text (s.approach (s.cursor.rest.length + 1)).1.tokens
      (s.approach (s.cursor.rest.length + 1)).1.cursor := by
    refine (approach_covers _ s covers).same ?_
    obtain ⟨same, _⟩ | ⟨comment, kind, same, _⟩ := nears.tokens
    · rw [same]
    · rw [same, words_cons_other (by rw [kind]; rfl)]
  fun_cases step s with
  | case1 near read =>
    rw [read] at there
    exact fun _ done => (dropStale_stays done).covers there
  | case2 | case3 => rintro _ ⟨⟩
  | case4 near found read _ t dropped last taken =>
    rw [read] at there
    rintro _ ⟨⟩
    exact token_covers (((dropStale_stays dropped).trans (unwind_stays t)).covers there) last taken
  | case5 near found read _ t dropped last taken =>
    rw [read] at there
    have all := token_covers (((dropStale_stays dropped).trans (unwind_stays t)).covers there) last taken
    exact fun _ done => (dropStale_stays done).covers all

theorem words_proper (tokens : List Token) : words (proper tokens) = (words tokens).reverse := by
  rw [words, proper, List.filter_filter, words, ← List.filter_reverse]
  refine List.filter_congr fun token _ => ?_
  by_cases comment : token.kind = .comment
  · rw [comment]
    rfl
  · simp [comment]

/-- At its end the whole text is covered. -/
theorem Covers.atEnd (covers : Covers text tokens c) (clean : nul ∉ text) (ended : c.peek = nul) :
    Covered text (words tokens) text := by
  have unused : nul ∉ c.rest := covers.leads.clean clean
  obtain ⟨before, stands, covered⟩ := covers
  have rest : c.rest = [] := by
    cases left : c.rest with
    | nil => rfl
    | cons ch rest =>
      rw [Cursor.peek_of_rest left] at ended
      exact absurd (by simp [left, ended]) unused
  have whole : text = before := by simpa [Cursor.ofText, rest] using stands.ahead
  exact whole ▸ covered

/-- Splitting a text covers all of it, unless it does not reach the end. -/
theorem run_covered (clean : nul ∉ text) (fuel : Nat) (s : Lexing) (tracked : Tracked text s)
    (covers : Covers text s.tokens s.cursor) :
    (∀ token ∈ (s.run fuel).tokens, token.kind ≠ .streamEnd) ∨
      Covered text (words (s.run fuel).tokens).reverse text := by
  fun_induction run fuel s with
  | case1 | case2 => exact .inl tracked.known_unended
  | case3 _ s after stepped done =>
    obtain further | ⟨_, ended⟩ := step_tracked clean tracked after stepped
    · exact absurd done further.goesOn
    · refine .inr ?_
      rw [words_proper, List.reverse_reverse]
      exact (step_covers clean covers after stepped).atEnd clean ended
  | case4 _ s after stepped goesOn ih =>
    obtain further | ⟨finished, _⟩ := step_tracked clean tracked after stepped
    · exact ih further (step_covers clean covers after stepped)
    · exact absurd finished.isDone goesOn

end Lexing

/-- Where the nodes of a text are read, the words among its tokens cover it: an ampersand stands in one of
them or in a comment. -/
theorem Node.ofText_covered {depth : Int} {text : List Char} {version : Version} {root : Option Node}
    (read : Node.ofText depth text = .ok (version, root)) :
    Covered text (words (TokenStream.ofText text).tokens).reverse text := by
  obtain ⟨seen, ending, rest, tokens, isEnding, _⟩ := Node.ofText_seated read
  have among : ending ∈ (TokenStream.ofText text).tokens := by simp [tokens]
  obtain none | ⟨clean, s, marks, run, tracked, fresh, passed, byteOrderMark⟩ := TokenStream.ofText_start text
  · rw [none] at among
    exact nomatch among
  · have free : '&' ∉ marks := by
      rcases byteOrderMark with rfl | rfl <;> decide
    have covers : Lexing.Covers text s.tokens s.cursor :=
      ⟨marks, passed, fresh ▸ .gap .nil free⟩
    rw [run] at among ⊢
    exact (Lexing.run_covered clean _ s tracked covers).resolve_left fun unended =>
      unended ending among isEnding

end PayloadCheck.Yaml
