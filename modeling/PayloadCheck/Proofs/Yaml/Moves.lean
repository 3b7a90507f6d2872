import PayloadCheck.Yaml.Cursor

namespace PayloadCheck.Yaml

namespace Cursor

@[simp] theorem next_rest (c : Cursor) : c.next.rest = c.rest.tail := by
  unfold next
  split
  · simp [*]
  · simp [*]

@[simp] theorem skip_rest (c : Cursor) (n : Nat) : (c.skip n).rest = c.rest.drop n := by
  induction n generalizing c with
  | zero => rfl
  | succ n ih => simp [skip, ih]

theorem skip_add (c : Cursor) (m n : Nat) : c.skip (m + n) = (c.skip m).skip n := by
  induction m generalizing c with
  | zero => simp [skip]
  | succ m ih => rw [Nat.succ_add, skip, skip, ih]

theorem skip_of_ended {c : Cursor} (ended : c.rest = []) (n : Nat) : c.skip n = c := by
  have same : c.next = c := by
    unfold next
    split
    · rfl
    · simp_all
  induction n with
  | zero => rfl
  | succ n ih => rw [skip, same, ih]

theorem peek_of_rest {c : Cursor} {ch : Char} {rest : List Char} (ahead : c.rest = ch :: rest) :
    c.peek = ch := by
  simp [peek, ahead]

theorem peekAt_one (c : Cursor) : c.peekAt 1 = c.next.peek := by
  simp [peekAt, peek]

/-- Moving forward from a cursor passes some characters and ends at another cursor. -/
structure Passes (c : Cursor) (passed : List Char) (d : Cursor) : Prop where
  ahead : c.rest = passed ++ d.rest
  reached : d = c.skip passed.length

namespace Passes

variable {c d e : Cursor} {passed others : List Char}

theorem refl (c : Cursor) : c.Passes [] c := ⟨rfl, rfl⟩

theorem trans (first : c.Passes passed d) (second : d.Passes others e) :
    c.Passes (passed ++ others) e where
  ahead := by rw [first.ahead, second.ahead, List.append_assoc]
  reached := by rw [second.reached, first.reached, List.length_append, skip_add]

theorem skip (c : Cursor) (n : Nat) : c.Passes (c.rest.take n) (c.skip n) where
  ahead := by simp
  reached := by
    rw [List.length_take]
    obtain within | beyond := Nat.le_total n c.rest.length
    · rw [Nat.min_eq_left within]
    · have ended : (c.skip c.rest.length).rest = [] := by simp
      rw [Nat.min_eq_right beyond, ← Nat.add_sub_of_le beyond, skip_add, skip_of_ended ended]

theorem next {ch : Char} (ahead : c.rest.head? = some ch) : c.Passes [ch] c.next := by
  have one := skip c 1
  rwa [List.take_one, ahead] at one

theorem peeked {ch : Char} (ahead : c.peek = ch) (real : ch ≠ nul) : c.Passes [ch] c.next := by
  refine next ?_
  unfold peek at ahead
  cases left : c.rest with
  | nil => simp_all
  | cons first rest => simp_all

theorem skipWhile (c : Cursor) (passes : Char → Bool) :
    c.Passes (c.run passes) (c.skipWhile passes) := by
  have whole := skip c (c.run passes).length
  have taken : c.rest.take (c.run passes).length = c.run passes := by
    unfold run
    exact List.prefix_iff_eq_take.mp (List.takeWhile_prefix _) |>.symm
  rwa [taken] at whole

end Passes

/-- A cursor lies ahead of another, or is the same. -/
def Leads (c d : Cursor) : Prop := ∃ passed, c.Passes passed d

namespace Leads

variable {c d e : Cursor}

theorem refl (c : Cursor) : c.Leads c := ⟨[], .refl c⟩

theorem trans : c.Leads d → d.Leads e → c.Leads e
  | ⟨_, first⟩, ⟨_, second⟩ => ⟨_, first.trans second⟩

theorem skip (c : Cursor) (n : Nat) : c.Leads (c.skip n) := ⟨_, .skip c n⟩

theorem next (c : Cursor) : c.Leads c.next := skip c 1

theorem skipWhile (c : Cursor) (passes : Char → Bool) : c.Leads (c.skipWhile passes) :=
  ⟨_, .skipWhile c passes⟩

theorem clean {d : Cursor} (unused : nul ∉ c.rest) : c.Leads d → nul ∉ d.rest
  | ⟨passed, moved⟩, among => unused (moved.ahead ▸ List.mem_append_right passed among)

end Leads

theorem lineBreak_none {c : Cursor} (unbroken : c.lineBreak? = none) : isBreak c.peek = false := by
  unfold lineBreak? at unbroken
  split at unbroken
  · exact nomatch unbroken
  · rename_i ch rest _ ahead
    rw [peek_of_rest ahead]
    by_cases separator : (ch == '\u2028' || ch == '\u2029') = true
    · rw [if_pos separator] at unbroken
      exact nomatch unbroken
    · rw [if_neg separator] at unbroken
      by_cases breaks : isBreak ch = true
      · rw [if_pos breaks] at unbroken
        exact nomatch unbroken
      · exact Bool.eq_false_iff.mpr breaks
  · rename_i ended
    simp only [peek, ended]
    rfl

end Cursor

/-- A character that can stand inside a word: no blank and no break. -/
def isSolid (ch : Char) : Bool := !(isBlank ch || isBreak ch)

/-- A text that ends on a line of blanks: it holds a break, and only blanks after the last one. -/
def EndsFresh (text : List Char) : Prop :=
  ∃ front ch blanks, text = front ++ ch :: blanks ∧ isBreak ch = true ∧ blanks.all isBlank = true

theorem EndsFresh.append {text : List Char} (front : List Char) (fresh : EndsFresh text) :
    EndsFresh (front ++ text) := by
  obtain ⟨before, ch, blanks, rfl, breaks, blank⟩ := fresh
  exact ⟨front ++ before, ch, blanks, by simp, breaks, blank⟩

theorem EndsFresh.blanks {text blanks : List Char} (fresh : EndsFresh text)
    (blank : blanks.all isBlank = true) : EndsFresh (text ++ blanks) := by
  obtain ⟨before, ch, others, rfl, breaks, otherBlank⟩ := fresh
  exact ⟨before, ch, others ++ blanks, by simp, breaks, by simp [otherBlank, blank]⟩

/-- A run of blanks and breaks ends on a fresh line if there is a break in it. -/
theorem blank_or_fresh {text : List Char} (spacing : text.all (fun ch => isBlank ch || isBreak ch) = true) :
    text.all isBlank = true ∨ EndsFresh text := by
  induction text with
  | nil => exact .inl rfl
  | cons ch rest ih =>
    rw [List.all_cons, Bool.and_eq_true, Bool.or_eq_true] at spacing
    obtain blank | fresh := ih spacing.2
    · obtain here | breaks := spacing.1
      · exact .inl (by simp [here, blank])
      · exact .inr ⟨[], ch, rest, rfl, breaks, blank⟩
    · exact .inr (fresh.append [ch])

namespace Cursor

/-- Reading a break passes breaks only. -/
theorem lineBreak_passes {c d : Cursor} {ch : Char} (broken : c.lineBreak? = some (ch, d)) :
    ∃ front last, c.Passes (front ++ [last]) d ∧ (front ++ [last]).all isBreak = true := by
  have single {first : Char} {rest : List Char} (ahead : c.rest = first :: rest)
      (breaks : isBreak first = true) :
      ∃ front last, c.Passes (front ++ [last]) c.next ∧ (front ++ [last]).all isBreak = true :=
    ⟨[], first, .next (by simp [ahead]), by simp [breaks]⟩
  unfold lineBreak? at broken
  split at broken
  · rename_i rest ahead
    cases broken
    have moved := Passes.skip c 2
    rw [ahead] at moved
    exact ⟨['\r'], '\n', moved, rfl⟩
  · rename_i first rest _ ahead
    by_cases separator : (first == '\u2028' || first == '\u2029') = true
    · rw [if_pos separator] at broken
      cases broken
      refine single ahead ?_
      simp only [Bool.or_eq_true, beq_iff_eq] at separator
      obtain rfl | rfl := separator <;> rfl
    · rw [if_neg separator] at broken
      by_cases breaks : isBreak first = true
      · rw [if_pos breaks] at broken
        cases broken
        exact single ahead breaks
      · rw [if_neg breaks] at broken
        exact nomatch broken
  · exact nomatch broken

/-- A cursor on a later line with nothing but blanks before it on that line, or at the end of the
text. -/
def Descends (c d : Cursor) : Prop :=
  ∃ passed, c.Passes passed d ∧ (EndsFresh passed ∨ d.peek = nul)

/-- No blank is ahead at the end of the text. -/
theorem Passes.ended {c d : Cursor} {blanks : List Char} (moved : c.Passes blanks d)
    (blank : blanks.all isBlank = true) (ended : c.peek = nul) : d = c := by
  cases blanks with
  | nil => exact moved.reached
  | cons ch others =>
    rw [peek_of_rest moved.ahead] at ended
    rw [ended] at blank
    exact absurd blank (by simp [isBlank, nul])

namespace Descends

variable {c d e : Cursor}

theorem leads : c.Descends d → c.Leads d
  | ⟨passed, moved, _⟩ => ⟨passed, moved⟩

theorem after : c.Leads d → d.Descends e → c.Descends e
  | ⟨_, first⟩, ⟨_, second, ends⟩ => ⟨_, first.trans second, ends.imp_left (.append _)⟩

theorem blanks {between : List Char} (descends : c.Descends d) (moved : d.Passes between e)
    (blank : between.all isBlank = true) : c.Descends e := by
  obtain ⟨passed, first, fresh | ended⟩ := descends
  · exact ⟨_, first.trans moved, .inl (fresh.blanks blank)⟩
  · have same := moved.ended blank ended
    exact ⟨_, first.trans moved, .inr (same ▸ ended)⟩

theorem lineBreak {ch : Char} (broken : c.lineBreak? = some (ch, d)) : c.Descends d := by
  obtain ⟨front, last, moved, breaks⟩ := lineBreak_passes broken
  have final := List.all_eq_true.mp breaks last (List.mem_append_right front (List.mem_singleton_self last))
  exact ⟨_, moved, .inl ⟨front, last, [], rfl, final, rfl⟩⟩

end Descends

theorem run_spaces (c : Cursor) : (c.run (· == ' ')).all isBlank = true := by
  rw [List.all_eq_true]
  intro ch among
  have space := List.all_eq_true.mp List.all_takeWhile ch among
  simp_all [isBlank]

theorem indentTo_passes (c : Cursor) (column : Nat) :
    ∃ blanks, c.Passes blanks (c.indentTo column) ∧ blanks.all isBlank = true := by
  unfold indentTo
  generalize column - c.column = n
  refine ⟨_, .skip c _, ?_⟩
  have spaces := run_spaces c
  rw [List.all_eq_true] at spaces ⊢
  intro ch member
  refine spaces ch ?_
  have taken : c.rest.take (c.run (· == ' ')).length = c.run (· == ' ') :=
    (List.prefix_iff_eq_take.mp (List.takeWhile_prefix _)).symm
  rw [← List.take_take, taken] at member
  exact List.mem_of_mem_take member

theorem Descends.indentTo {c d : Cursor} (descends : c.Descends d) (column : Nat) :
    c.Descends (d.indentTo column) := by
  obtain ⟨blanks, moved, blank⟩ := indentTo_passes d column
  exact descends.blanks moved blank

theorem Descends.spaces {c d : Cursor} (descends : c.Descends d) :
    c.Descends (d.skipWhile (· == ' ')) :=
  descends.blanks (.skipWhile d _) (run_spaces d)

theorem Descends.spacing {c d : Cursor} (descends : c.Descends d) :
    c.Descends (d.skipWhile fun ch => isBlank ch || isBreak ch) := by
  have moved := Passes.skipWhile d fun ch => isBlank ch || isBreak ch
  obtain blank | fresh := blank_or_fresh (List.all_takeWhile (l := d.rest))
  · exact descends.blanks moved blank
  · exact .after descends.leads ⟨_, moved, .inl fresh⟩

/-- Reading breaks goes on from a fresh line to a fresh line. -/
theorem Descends.breaksTo {c d : Cursor} (descends : c.Descends d) (column fuel : Nat) :
    c.Descends (d.breaksTo column fuel).2 := by
  fun_induction Cursor.breaksTo column fuel d with
  | case1 => exact descends
  | case2 => exact descends
  | case3 fuel d ch after broken others rest read ih =>
    rw [read] at ih
    exact ih ((Descends.after descends.leads (.lineBreak broken)).indentTo column)

theorem skipWhile_rest (c : Cursor) (passes : Char → Bool) :
    (c.skipWhile passes).rest = c.rest.dropWhile passes := by
  have split : c.run passes ++ c.rest.dropWhile passes = c.rest := List.takeWhile_append_dropWhile
  rw [skipWhile, skip_rest, ← split, List.drop_left, split]

/-- Where a line ends without a break, the text ends. -/
theorem ended_of_unbroken {c : Cursor} (ended : endsLine c.peek = true) (unbroken : c.lineBreak? = none) :
    c.peek = nul := by
  have whole := lineBreak_none unbroken
  simp_all [endsLine, isBreak]

/-- What follows the end of a line is a fresh line, unless the text ends there. -/
theorem Descends.lineEnd {c : Cursor} (ended : endsLine c.peek = true) :
    c.Descends ((c.lineBreak?.map (·.2)).getD c) := by
  cases broken : c.lineBreak? with
  | none => exact ⟨[], .refl c, .inr (ended_of_unbroken ended broken)⟩
  | some found => exact .lineBreak broken

theorem Leads.comment (c : Cursor) :
    c.Leads (if c.peek == '#' then c.skipWhile (!endsLine ·) else c) := by
  split
  · exact .skipWhile c _
  · exact .refl c

theorem endsLine_skipWhile (c : Cursor) : endsLine (c.skipWhile (!endsLine ·)).peek = true := by
  rw [peek, skipWhile_rest]
  cases behind : c.rest.dropWhile (!endsLine ·) with
  | nil => rfl
  | cons ch rest =>
    have stops := List.head_dropWhile_not (!endsLine ·) (l := c.rest) (by simp [behind])
    simpa [behind] using stops

end Cursor

end PayloadCheck.Yaml
