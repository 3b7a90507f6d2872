import Mathlib.Tactic.FinCases
import Mathlib.Tactic.Tauto
import PayloadCheck.Proofs.Yaml.Moves
import PayloadCheck.Yaml.Lexing

namespace PayloadCheck.Yaml

/-- Whatever a result holds, it ends ahead of a cursor. -/
def Onward {α : Type} (c : Cursor) (result : Except Failure (α × Cursor)) : Prop :=
  ∀ a d, result = .ok (a, d) → c.Leads d

namespace Onward

variable {α β : Type} {c d : Cursor} {result : Except Failure (α × Cursor)}

theorem ok {a : α} (leads : c.Leads d) : Onward c (.ok (a, d)) := by
  intro b e same
  cases same
  exact leads

theorem error {failure : Failure} : Onward c (.error failure : Except Failure (α × Cursor)) := by
  intro a d same
  cases same

theorem after (leads : c.Leads d) (onward : Onward d result) : Onward c result :=
  fun a e same => leads.trans (onward a e same)

theorem map {f : α → β} (onward : Onward c result) :
    Onward c (result.map fun (a, d) => (f a, d)) := by
  cases result with
  | ok read => exact ok (onward _ _ rfl)
  | error failure => exact error

end Onward

theorem quotedBreaks_onward (fuel : Nat) (c : Cursor) : Onward c (quotedBreaks fuel c) := by
  fun_induction quotedBreaks fuel c with
  | case1 c => exact .ok (.refl c)
  | case2 => exact .error
  | case3 _ c => exact .ok (.skipWhile c _)
  | case4 _ c _ _ ch after broken others rest read ih =>
    have here := Cursor.Leads.skipWhile c isBlank
    have below := (Cursor.Descends.lineBreak broken).leads
    exact .ok ((here.trans below).trans (ih _ _ read))
  | case5 => exact .error

theorem quotedGap_onward (c : Cursor) : Onward c (quotedGap c) := by
  have here := Cursor.Leads.skipWhile c isBlank
  fun_cases quotedGap c with
  | case1 _ _ ch after broken breaks rest read =>
    have below := (Cursor.Descends.lineBreak broken).leads
    exact .ok ((here.trans below).trans (quotedBreaks_onward _ _ _ _ read))
  | case2 | case3 => exact .error
  | case4 => exact .ok here

theorem readDigits_onward (width : Nat) (c : Cursor) : Onward c (readDigits width c) := by
  fun_cases readDigits width c with
  | case1 | case2 => exact .error
  | case3 => exact .ok ((Cursor.Leads.skip c _).trans (.skip _ _))
  | case4 | case5 => exact .ok (.skip c _)

theorem readEscape_onward (c : Cursor) : Onward c (readEscape c) := by
  fun_cases readEscape c with
  | case1 => exact .ok (.next c)
  | case2 => exact .after (.next c) (readDigits_onward _ _)
  | case3 _ _ _ _ broken =>
    exact .after (Cursor.Descends.lineBreak broken).leads (quotedBreaks_onward _ _)
  | case4 => exact .error

theorem quotedPiece_onward (closing : Char) (c : Cursor) :
    ∀ piece d, quotedPiece closing c = .ok (some (piece, d)) → c.Leads d := by
  have mapped {start : Cursor} {result : Except Failure (List Char × Cursor)}
      (leads : c.Leads start) (onward : Onward start result) :
      ∀ piece d, result.map some = .ok (some (piece, d)) → c.Leads d := by
    intro piece d same
    cases result with
    | ok found =>
      cases same
      exact leads.trans (onward _ _ rfl)
    | error failure => cases same
  fun_cases quotedPiece closing c with
  | case1 =>
    rintro _ _ ⟨⟩
    exact .skip c _
  | case2 =>
    rintro _ _ ⟨⟩
    exact .skip c _
  | case3 => rintro _ _ ⟨⟩
  | case4 => exact mapped (.next c) (readEscape_onward _)
  | case5 =>
    rintro _ _ ⟨⟩
    exact .next c
  | case6 => exact mapped (.refl c) (quotedGap_onward _)

theorem quotedRest_onward (closing : Char) (fuel : Nat) (c : Cursor) :
    Onward c (quotedRest closing fuel c) := by
  fun_induction quotedRest closing fuel c with
  | case1 | case2 | case5 => exact .error
  | case3 => exact .ok (.next _)
  | case4 _ _ _ _ piece _ _ read ih =>
    exact .ok ((quotedPiece_onward _ _ _ _ piece).trans (ih _ _ read))

theorem readQuoted_onward (c : Cursor) : Onward c (readQuoted c) :=
  .after (.next c) (quotedRest_onward _ _ _)

/-- Whatever a result holds, only a word without blanks lies before its end. -/
def Spells {α : Type} (c : Cursor) (result : Except Failure (α × Cursor)) : Prop :=
  ∀ a d, result = .ok (a, d) → ∃ word, c.Passes word d ∧ word.all isSolid = true

namespace Spells

variable {α β : Type} {c d : Cursor} {word : List Char} {result : Except Failure (α × Cursor)}

theorem ok {a : α} (moved : c.Passes word d) (solid : word.all isSolid = true) :
    Spells c (.ok (a, d)) := by
  intro b e same
  cases same
  exact ⟨word, moved, solid⟩

theorem error {failure : Failure} : Spells c (.error failure : Except Failure (α × Cursor)) := by
  intro a d same
  cases same

theorem after (moved : c.Passes word d) (solid : word.all isSolid = true) (spells : Spells d result) :
    Spells c result := by
  intro a e same
  obtain ⟨others, further, otherSolid⟩ := spells a e same
  exact ⟨word ++ others, moved.trans further, by simp [solid, otherSolid]⟩

theorem map {f : α → β} (spells : Spells c result) :
    Spells c (result.map fun (a, d) => (f a, d)) := by
  cases result with
  | ok read =>
    obtain ⟨word, moved, solid⟩ := spells _ _ rfl
    exact ok moved solid
  | error failure => exact error

theorem onward (spells : Spells c result) : Onward c result := by
  intro a d same
  obtain ⟨word, moved, _⟩ := spells a d same
  exact ⟨word, moved⟩

end Spells

/-- The run of a class of solid characters is a word. -/
theorem Cursor.run_solid {passes : Char → Bool} (solid : ∀ ch, passes ch = true → isSolid ch = true)
    (c : Cursor) : (c.run passes).all isSolid = true :=
  List.all_eq_true.mpr fun ch among => solid ch (List.all_eq_true.mp List.all_takeWhile ch among)

theorem isSolid_eq_false {ch : Char} (hollow : isSolid ch = false) :
    ch ∈ [' ', '\t', '\n', '\r', '\u0085', '\u2028', '\u2029'] := by
  simp only [isSolid, isBlank, isBreak, Bool.not_eq_false', Bool.or_eq_true, beq_iff_eq] at hollow
  simp only [List.mem_cons]
  tauto

theorem isSolid_of_word {ch : Char} (belongs : isWordCharacter ch = true) : isSolid ch = true := by
  cases solid : isSolid ch with
  | true => rfl
  | false =>
    have hollow := isSolid_eq_false solid
    fin_cases hollow <;> exact absurd belongs (by decide)

theorem isSolid_of_address {v : Version} {ch : Char} (belongs : isAddressCharacter v ch = true) :
    isSolid ch = true := by
  cases solid : isSolid ch with
  | true => rfl
  | false =>
    have hollow := isSolid_eq_false solid
    unfold isAddressCharacter at belongs
    generalize v.isNewer = newer at belongs
    fin_cases hollow <;> cases newer <;> exact absurd belongs (by decide)

theorem readAddress_spells (v : Version) (c : Cursor) : Spells c (readAddress v c) := by
  fun_cases readAddress v c with
  | case1 | case3 => exact .error
  | case2 => exact .ok (.skipWhile c _) (c.run_solid fun _ => isSolid_of_address)

theorem readHandle_spells (c : Cursor) : Spells c.next (readHandle c) := by
  fun_cases readHandle c with
  | case1 | case3 => exact .error
  | case2 => exact .ok (.refl _) rfl
  | case4 _ _ word after again =>
    have second : after.peek = '!' := by simpa using again
    have spelled := (Cursor.Passes.skipWhile c.next isWordCharacter).trans (.peeked second (by decide))
    refine .ok spelled ?_
    simp [c.next.run_solid fun _ => isSolid_of_word, isSolid, isBlank, isBreak]

theorem readTagFrom_spells (v : Version) (handle : List Char) (c : Cursor) :
    Spells c.next (readTagFrom v handle c) := by
  fun_cases readTagFrom v handle c with
  | case1 | case3 | case5 => exact .error
  | case2 follower opened address after read closed =>
    have opening : c.next.peek = '<' := by
      rw [← Cursor.peekAt_one]
      exact beq_iff_eq.mp opened
    have closing : after.Passes ['>'] after.next := .peeked (by simpa using closed) (by decide)
    obtain ⟨word, spelled, solid⟩ := readAddress_spells v _ _ _ read
    refine .ok ((Cursor.Passes.peeked opening (by decide)).trans (spelled.trans closing)) ?_
    simp [solid, isSolid, isBlank, isBreak]
  | case4 => exact .ok (.refl _) rfl
  | case6 _ _ _ _ name after read =>
    obtain ⟨word, spelled, solid⟩ := readHandle_spells c _ _ read
    exact .after spelled solid (readAddress_spells _ _).map
  | case7 => exact (readAddress_spells _ _).map

/-- The name of a tag is a word behind its exclamation mark. -/
theorem readTag_spells (v : Version) (c : Cursor) : Spells c.next (readTag v c) := by
  have named : Spells c.next
      (if c.peekAt 1 == '!' then readTagFrom v ['!', '!'] c.next else readTagFrom v ['!'] c) := by
    split
    · rename_i again
      rw [Cursor.peekAt_one] at again
      exact .after (.peeked (beq_iff_eq.mp again) (by decide)) rfl (readTagFrom_spells _ _ _)
    · exact readTagFrom_spells _ _ _
  fun_cases readTag v c with
  | case1 | case3 => exact .error
  | case2 _ name after read =>
    obtain ⟨word, spelled, solid⟩ := named _ _ read
    exact .ok spelled solid

theorem readAnchor_passes {c d : Cursor} {name : List Char} (marked : c.peek = '&')
    (read : readAnchor c = .ok (name, d)) :
    c.Passes ('&' :: name) d ∧ name ≠ [] ∧ name.all isAnchorCharacter = true := by
  unfold readAnchor at read
  extract_lets inside found after at read
  split at read
  · exact nomatch read
  · rename_i sound
    simp only [Except.ok.injEq, Prod.mk.injEq] at read
    obtain ⟨rfl, rfl⟩ := read
    have mark : c.Passes ['&'] inside := .peeked marked (by decide)
    refine ⟨mark.trans (.skipWhile inside isAnchorCharacter), ?_, List.all_takeWhile⟩
    intro vacant
    simp [vacant] at sound

theorem readAnchor_onward (c : Cursor) : Onward c (readAnchor c) := by
  fun_cases readAnchor c with
  | case1 => exact .error
  | case2 => exact .ok ((Cursor.Leads.next c).trans (.skip _ _))

theorem readNumber_onward (c : Cursor) : Onward c (readNumber c) := by
  fun_cases readNumber c with
  | case1 => exact .error
  | case2 => exact .ok (.skip c _)

theorem readVersion_onward (c : Cursor) : Onward c (readVersion c) := by
  have here := Cursor.Leads.skipWhile c (· == ' ')
  fun_cases readVersion c with
  | case1 | case2 | case3 | case5 => exact .error
  | case4 major dot majorRead point minor after minorRead =>
    have first := here.trans (readNumber_onward _ _ _ majorRead)
    exact .ok ((first.trans (.next dot)).trans (readNumber_onward _ _ _ minorRead))

theorem readDeclaration_onward (v : Version) (c : Cursor) : Onward c (readDeclaration v c) := by
  have here := Cursor.Leads.skipWhile c (· == ' ')
  fun_cases readDeclaration v c with
  | case1 | case2 | case3 | case5 => exact .error
  | case4 name behind nameRead space address after addressRead =>
    have first := here.trans ((Cursor.Leads.next _).trans ((readHandle_spells _).onward _ _ nameRead))
    exact .ok ((first.trans (.skipWhile behind _)).trans ((readAddress_spells _ _).onward _ _ addressRead))

theorem readDirective_onward (v : Version) (c : Cursor) : Onward c (readDirective v c) := by
  fun_cases readDirective v c with
  | case1 | case2 | case4 => exact .error
  | case3 inside name after _ body d rest read behind last ended =>
    have named : c.Leads after := (Cursor.Leads.next c).trans (.skip inside _)
    have declared : Onward after body := by
      dsimp only [body]
      split
      · exact readVersion_onward _
      · split
        · exact readDeclaration_onward _ _
        · exact .ok (.skipWhile _ _)
    have line := ((Cursor.Leads.skipWhile rest _).trans (.comment behind)).trans
      (Cursor.Descends.lineEnd ended).leads
    exact .ok ((named.trans (declared _ _ read)).trans line)

theorem readIncrement_onward (c : Cursor) : Onward c (readIncrement c) := by
  fun_cases readIncrement c with
  | case1 => exact .error
  | case2 => exact .ok (.next c)
  | case3 => exact .ok (.refl c)

theorem readIndicators_onward (c : Cursor) : Onward c (readIndicators c) := by
  fun_cases readIndicators c with
  | case1 => exact .after (.next c) (readIncrement_onward _).map
  | case2 => exact .error
  | case3 _ _ read => exact .ok (readIncrement_onward _ _ _ read)
  | case4 _ _ _ read => exact .ok ((readIncrement_onward _ _ _ read).trans (.next _))
  | case5 _ _ _ read => exact .ok (readIncrement_onward _ _ _ read)

theorem readHeader_descends {c d : Cursor} {header : BlockHeader}
    (read : readHeader c = .ok (header, d)) : c.Descends d := by
  unfold readHeader at read
  split at read
  · exact nomatch read
  · rename_i indicated
    split at read
    · exact nomatch read
    · extract_lets line rest at read
      split at read
      · exact nomatch read
      · rename_i ended
        simp only [Except.ok.injEq, Prod.mk.injEq] at read
        obtain ⟨rfl, rfl⟩ := read
        have header := readIndicators_onward _ _ _ indicated
        have behind := (header.trans (.skipWhile _ (· == ' '))).trans (.comment line)
        have stops : endsLine rest.peek = true := by simpa using ended
        exact .after behind (.lineEnd stops)

theorem readLead_descends {b c : Cursor} (descends : b.Descends c) (fuel : Nat) :
    b.Descends (readLead fuel c).rest := by
  fun_induction readLead fuel c with
  | case1 => exact descends
  | case2 => exact descends.spaces
  | case3 _ c _ below _ ch after broken lead ih =>
    exact ih (.after descends.spaces.leads (.lineBreak broken))

theorem blockIndent_descends {b c d : Cursor} {least indent : Nat} {header : BlockHeader}
    {breaks : List Char} (descends : b.Descends c)
    (found : blockIndent least header c = .ok (indent, breaks, d)) : b.Descends d := by
  unfold blockIndent at found
  split at found
  · simp only [Except.ok.injEq, Prod.mk.injEq] at found
    obtain ⟨-, -, rfl⟩ := found
    exact (descends.indentTo _).breaksTo _ _
  · extract_lets lead first at found
    split at found
    · exact nomatch found
    · simp only [Except.ok.injEq, Prod.mk.injEq] at found
      obtain ⟨-, -, rfl⟩ := found
      exact readLead_descends descends _

/-- The end of a line in a block, with the break behind it. -/
theorem blockLine_descends {c after : Cursor} {here : List Char}
    (read : (match (c.skipWhile (!endsLine ·)).lineBreak? with
      | some (ch, after) => ([ch], after)
      | none => ([], c.skipWhile (!endsLine ·))) = (here, after)) : c.Descends after := by
  refine .after (.skipWhile c (!endsLine ·)) ?_
  split at read
  · rename_i broken
    cases read
    exact .lineBreak broken
  · rename_i unbroken
    cases read
    exact ⟨[], .refl _, .inr (Cursor.ended_of_unbroken (Cursor.endsLine_skipWhile c) unbroken)⟩

theorem blockLines_descends {b c : Cursor} (isFolded isOuter : Bool) (indent fuel : Nat)
    (last breaks : List Char) (descends : b.Descends c) :
    b.Descends (blockLines isFolded isOuter indent fuel last breaks c).rest := by
  have below {c after rest : Cursor} {next : List Char} (descends : b.Descends c)
      (line : c.Descends after)
      (blank : (after.indentTo indent).breaksTo indent (after.rest.length + 1) = (next, rest)) :
      b.Descends rest := by
    have fresh := (Cursor.Descends.after descends.leads line).indentTo indent
    have lower := fresh.breaksTo indent (after.rest.length + 1)
    rwa [blank] at lower
  fun_induction blockLines isFolded isOuter indent fuel last breaks c with
  | case1 | case2 => exact descends
  | case3 _ _ _ _ _ _ _ _ _ line _ _ blank => exact below descends (blockLine_descends line) blank
  | case4 _ _ _ _ _ _ _ _ _ line _ _ blank _ _ _ _ ih =>
    exact ih (below descends (blockLine_descends line) blank)

theorem readBlock_descends {isFolded : Bool} {least : Nat} {c : Cursor} {found : BlockText}
    (read : readBlock isFolded least c = .ok found) : c.Descends found.rest := by
  unfold readBlock at read
  split at read
  · exact nomatch read
  · rename_i headed
    split at read
    · exact nomatch read
    · rename_i indented
      extract_lets isOuter lines at read
      cases read
      have header := Cursor.Descends.after (.next c) (readHeader_descends headed)
      exact blockLines_descends _ _ _ _ _ _ (blockIndent_descends header indented)

theorem blankLines_descends {b c : Cursor} (descends : b.Descends c) (fuel : Nat) :
    b.Descends (blankLines fuel c).2 := by
  fun_induction blankLines fuel c with
  | case1 => exact descends
  | case2 => exact descends.spaces
  | case3 _ _ _ _ _ broken => exact .after descends.spaces.leads (.lineBreak broken)
  | case4 _ _ _ _ after broken _ others rest read ih =>
    rw [read] at ih
    exact ih (.after descends.spaces.leads (.lineBreak broken))

/-- A comment in a text without NUL ends with its line. -/
theorem commentEnd_descends {c : Cursor} (clean : nul ∉ c.rest) : c.Descends (Lexing.commentEnd c) := by
  have below : c.Descends (c.skipWhile (!endsLine ·)).next := by
    have ended := Cursor.endsLine_skipWhile c
    have passed := Cursor.Passes.skipWhile c (!endsLine ·)
    generalize c.skipWhile (!endsLine ·) = stop at ended passed
    cases left : stop.rest with
    | nil =>
      have same : stop.next = stop := Cursor.skip_of_ended left 1
      rw [same]
      exact ⟨_, passed, .inr (by simp [Cursor.peek, left])⟩
    | cons ch rest =>
      have real : ch ≠ nul := by
        rintro rfl
        exact clean (by simp [passed.ahead, left])
      rw [Cursor.peek_of_rest left] at ended
      have breaks : isBreak ch = true := by simp_all [endsLine, isBreak]
      exact .after ⟨_, passed⟩ ⟨[ch], .next (by simp [left]), .inl ⟨[], ch, [], rfl, breaks, rfl⟩⟩
  exact below.breaksTo 0 _

/-- Reading ends ahead, and on a fresh line if it is said to. -/
def Cursor.Reaches (c d : Cursor) (fresh : Bool) : Prop := c.Leads d ∧ (fresh = true → c.Descends d)

theorem plainGap_reaches (c : Cursor) : c.Reaches (plainGap c).rest (plainGap c).fresh := by
  have here : c.Leads (c.skipWhile (· == ' ')) := .skipWhile c _
  have fresh {d : Cursor} (descends : c.Descends d) : c.Reaches d true :=
    ⟨descends.leads, fun _ => descends⟩
  fun_cases plainGap c with
  | case1 => exact ⟨here, fun same => nomatch same⟩
  | case2 _ _ _ _ broken => exact fresh (.after here (.lineBreak broken))
  | case3 _ _ _ after broken _ rest blank =>
    have below := blankLines_descends (Cursor.Descends.after here (.lineBreak broken))
      (after.rest.length + 1)
    rw [blank] at below
    exact fresh below
  | case4 _ _ _ after broken _ breaks rest blank =>
    have below := blankLines_descends (Cursor.Descends.after here (.lineBreak broken))
      (after.rest.length + 1)
    rw [blank] at below
    exact fresh below

theorem plainWords_reaches {b : Cursor} (v : Version) (inFlow : Bool) (indent fuel : Nat) (stop : Mark)
    (gap : PlainGap) (reaches : b.Reaches gap.rest gap.fresh) :
    b.Reaches (plainWords v inFlow indent fuel stop gap).rest
      (plainWords v inFlow indent fuel stop gap).fresh := by
  have onward {gap : PlainGap} (reaches : b.Reaches gap.rest gap.fresh) (length : Nat) :
      b.Reaches (plainGap (gap.rest.skip length)).rest (plainGap (gap.rest.skip length)).fresh := by
    have words := reaches.1.trans (.skip gap.rest length)
    obtain ⟨leads, lands⟩ := plainGap_reaches (gap.rest.skip length)
    exact ⟨words.trans leads, fun fresh => .after words (lands fresh)⟩
  fun_induction plainWords v inFlow indent fuel stop gap with
  | case1 | case2 => exact reaches
  | case3 => exact onward reaches _
  | case4 _ _ _ _ _ _ _ _ _ _ ih => exact ih (onward reaches _)

theorem readPlain_reaches (v : Version) (inFlow : Bool) (indent : Nat) (c : Cursor) :
    c.Reaches (readPlain v inFlow indent c).rest (readPlain v inFlow indent c).fresh :=
  plainWords_reaches v inFlow indent _ _ _ ⟨.refl c, fun same => nomatch same⟩

end PayloadCheck.Yaml
