import PayloadCheck.Proofs.Json.Limits
import PayloadCheck.Proofs.Json.RefusedConstant

namespace PayloadCheck.Json

/-- A text is the beginning of a JSON text. -/
def Viable (text : List Char) : Prop := ∃ behind t, PaddedText t (text ++ behind)

theorem Viable.of_append {front behind : List Char} (viable : Viable (front ++ behind)) : Viable front := by
  obtain ⟨last, t, written⟩ := viable
  exact ⟨behind ++ last, t, by rwa [List.append_assoc] at written⟩

/-- What a value, a string or a member can begin with. -/
def BeginsValue (front : List Char) : Prop := ∃ behind t, TreeText t (front ++ behind)

def BeginsString (front : List Char) : Prop := ∃ behind ps, StringText ps (front ++ behind)

def BeginsMember (front : List Char) : Prop := ∃ behind m, MemberText m (front ++ behind)

/-- A string is broken off where it begins, or behind pieces that could be completed. -/
inductive PiecesBroken (opening : List Char) : List Char → List Char → Prop
  | unterminated {text : List Char} : PiecesBroken opening text opening
  | behind {ps : List Piece} {front rest : List Char} (behind : List Char) :
      PiecesText ps (front ++ behind) → PiecesBroken opening (front ++ rest) rest

theorem PiecesBroken.here {opening text : List Char} : PiecesBroken opening text text :=
  @PiecesBroken.behind opening [] [] text [] .nil

theorem PiecesBroken.cons {opening text rest pieceText : List Char} {p : Piece}
    (first : PieceText p pieceText) (broken : PiecesBroken opening text rest) :
    PiecesBroken opening (pieceText ++ text) rest := by
  cases broken with
  | unterminated => exact .unterminated
  | @behind ps front _ behind written =>
    rw [← List.append_assoc]
    exact .behind behind (by simpa using PiecesText.cons first written)

theorem pieces_broken {opening text rest : List Char} {fault : Fault}
    (refused : pieces opening text = .error (.malformed fault rest)) : PiecesBroken opening text rest := by
  -- A backslash alone can still begin an escape of one letter.
  have backslash : PiecesText [.char '\n'] (['\\'] ++ ['n']) := by
    simpa using PiecesText.cons (.short (by decide)) .nil
  fun_induction pieces opening text with
  | case1 | case3 =>
    cases refused
    exact .unterminated
  | case2 | case4 | case8 | case12 => cases refused
  | case5 a b c d e behind code quad failed inner ih =>
    cases refused
    obtain ⟨k, l, m, n, first, second, third, fourth, rfl⟩ := hexQuad?_eq_some.mp quad
    exact .cons (.numeric first second third fourth) (ih inner)
  | case6 | case7 =>
    cases refused
    exact .behind ['n'] backslash
  | case9 letter behind _ c short failed inner ih =>
    cases refused
    exact .cons (.short (shortEscape?_eq_some.mp short)) (ih inner)
  | case10 | case11 =>
    cases refused
    exact .here
  | case13 c behind notEnd notLast notUnit notShort visible failed inner ih =>
    cases refused
    have unescaped : c ≠ '\\' := by
      intro same
      cases behind with
      | nil => exact notLast same rfl
      | cons letter others => exact notShort _ _ same rfl
    exact .cons (.plain (by omega) notEnd unescaped) (ih inner)

theorem stringBody_broken {text rest : List Char} {fault : Fault}
    (refused : stringBody text = .error (.malformed fault rest)) :
    ∃ front, '"' :: text = front ++ rest ∧ BeginsString front := by
  unfold stringBody at refused
  split at refused
  · cases refused
  · rename_i failed
    cases refused
    cases pieces_broken failed with
    | unterminated => exact ⟨[], rfl, ['"', '"'], [], .quoted .nil⟩
    | @behind ps front _ behind written =>
      exact ⟨'"' :: front, rfl, behind ++ ['"'], ps, by simpa using StringText.quoted written⟩

theorem nullText : TreeText .null ['n', 'u', 'l', 'l'] := .null

theorem MemberStuck.broken {text rest : List Char} {fault : Fault}
    (stuck : MemberStuck text (.malformed fault rest)) :
    ∃ front, text = front ++ rest ∧ BeginsMember front := by
  cases stuck with
  | noName =>
    have written := MemberText.pair space_nil (.quoted .nil) space_nil nullText.padded
    exact ⟨[], rfl, _, _, written⟩
  | name refused =>
    obtain ⟨front, split, behind, ps, named⟩ := stringBody_broken refused
    have written := MemberText.pair space_nil named space_nil nullText.padded
    exact ⟨front, split, behind ++ [':', 'n', 'u', 'l', 'l'], _, by simpa using written⟩
  | @noColon name nameText w _ named space =>
    have written := MemberText.pair space_nil named space nullText.padded
    exact ⟨nameText ++ w, by simp, [':', 'n', 'u', 'l', 'l'], _, by simpa using written⟩

/-- Where a value cannot be read, what has been read of it can be completed. -/
theorem Stuck.broken {text rest : List Char} {fault : Fault} (stuck : Stuck text (.malformed fault rest)) :
    ∃ front, text = front ++ rest ∧ BeginsValue front := by
  cases stuck with
  | noValue => exact ⟨[], rfl, _, _, nullText⟩
  | string refused =>
    obtain ⟨front, split, behind, ps, written⟩ := stringBody_broken refused
    exact ⟨front, split, behind, _, .string written⟩
  | @afterItem ts w items _ space written =>
    have whole := TreeText.array (written.after_space space)
    exact ⟨'[' :: (w ++ items), by simp, [']'], _, by simpa using whole⟩
  | @atMember d w front text _ space earlier stuck =>
    obtain ⟨inner, rfl, behind, m, written⟩ := stuck.broken
    obtain ⟨ms, members, _⟩ := earlier.complete written
    have whole := TreeText.object (members.after_space space)
    exact ⟨'\x7b' :: (w ++ (front ++ inner)), by simp, behind ++ ['\x7d'], _, by simpa using whole⟩
  | @afterMember ms w members _ space written =>
    have whole := TreeText.object (written.after_space space)
    exact ⟨'\x7b' :: (w ++ members), by simp, ['\x7d'], _, by simpa using whole⟩

theorem Frame.viable {d e : Nat} {w before behind front : List Char} (frame : Frame d e before behind)
    (space : Space w) (begins : BeginsValue front) : Viable (w ++ (before ++ front)) := by
  obtain ⟨more, t, written⟩ := begins
  obtain ⟨u, whole, _⟩ := frame.fill written
  exact ⟨more ++ behind, u, by simpa using whole.padded.after_space space⟩

/-- A malformed text is the beginning of a JSON text up to the place where it is refused. -/
theorem decode_viable {d : Nat} {text rest : List Char} {fault : Fault}
    (refused : decode ⟨d, false⟩ text = .error (.malformed fault rest)) :
    ∃ front, text = front ++ rest ∧ Viable front := by
  rcases decode_stuck refused with mark | ⟨w, _, space, rfl, e, before, behind, place, frame, rfl, stuck⟩ |
    ⟨t, before, extra, written, rfl, same⟩
  · cases mark
    exact ⟨[], rfl, _, _, nullText.padded⟩
  · obtain ⟨front, rfl, begins⟩ := stuck.broken
    exact ⟨w ++ (before ++ front), by simp, frame.viable space begins⟩
  · cases same
    exact ⟨before, rfl, [], t, by simpa using written⟩

theorem Refusal.IsLimit.offset?_eq_none {refusal : Refusal} (isLimit : refusal.IsLimit) (text : List Char) :
    refusal.offset? text = none := by
  have read := refusal.readOffset_eq text
  cases refusal with
  | malformed => exact False.elim isLimit
  | constant => exact False.elim isLimit
  | tooManyDigits digits => exact Except.ok.inj (read.symm.trans (offsetInMessage_tooManyDigits digits))
  | tooDeep container => exact Except.ok.inj (read.symm.trans (offsetInMessage_tooDeep container text))

/-- A refusal that is no limit has its place at the end of what can be completed. -/
theorem decode_offset {text : List Char} {refusal : Refusal}
    (refused : decode ⟨nestingLimit, false⟩ text = .error refusal) (fault : ¬ refusal.IsLimit) :
    ∃ front rest, text = front ++ rest ∧ refusal.offset? text = some (front.length : Int) ∧ Viable front := by
  cases refusal with
  | malformed fault rest =>
    obtain ⟨front, rfl, viable⟩ := decode_viable refused
    exact ⟨front, rest, rfl, by simp [Refusal.offset?, offsetOf], viable⟩
  | constant name rest =>
    obtain ⟨named, w, before, behind, e, space, frame, rfl⟩ := decode_constant refused
    have clear := space.clear.append frame.clear
    refine ⟨w ++ before, rest, rfl, ?_, ?_⟩
    · rw [Refusal.offset?, bareToken?_of_clear clear named]
      rfl
    · have viable : Viable (w ++ (before ++ [])) := frame.viable space ⟨['n', 'u', 'l', 'l'], _, nullText⟩
      rwa [List.append_nil] at viable
  | tooManyDigits => exact absurd trivial fault
  | tooDeep => exact absurd trivial fault

/-- A text that is reported with an offset was refused, and not for a limit. -/
theorem refused_of_offset {text : List Char} {offset : Int}
    (placed : (diagnose text).offset? = some offset) :
    ∃ refusal, decode ⟨nestingLimit, false⟩ text = .error refusal ∧ ¬ refusal.IsLimit ∧
      refusal.offset? text = some offset := by
  unfold diagnose parse at placed
  split at placed
  · cases placed
  · split at placed
    · cases placed
    · rename_i refusal refused
      have given : refusal.offset? text = some offset := Diagnosis.eq_of_offset?_failure placed
      refine ⟨refusal, refused, fun isLimit => ?_, given⟩
      cases given.symm.trans (isLimit.offset?_eq_none text)

/-- A reported offset lies in the text, and not beyond the first error. What stands before it can be
completed to a JSON text; where the beginning of the text cannot, it reaches past the offset; and the text
itself is no JSON, whatever its depth and its numbers. -/
theorem offset_before_error {text : List Char} {offset : Int}
    (placed : (diagnose text).offset? = some offset) :
    0 ≤ offset ∧ offset ≤ text.length ∧ Viable (text.take offset.toNat) ∧
      (∀ k, ¬ Viable (text.take k) → offset < k) ∧ ∀ t, ¬ PaddedText t text := by
  obtain ⟨refusal, refused, fault, given⟩ := refused_of_offset placed
  obtain ⟨front, rest, rfl, place, viable⟩ := decode_offset refused fault
  cases place.symm.trans given
  refine ⟨by omega, by simp, by simpa using viable, fun k broken => ?_, fun t written => ?_⟩
  · refine Int.not_le.mp fun within => broken ?_
    have inside : k ≤ front.length := by omega
    rw [List.take_append_of_le_length inside]
    exact Viable.of_append (by rwa [List.take_append_drop])
  · rcases decode_of_json written with ⟨v, read⟩ | ⟨other, limited, isLimit⟩
    · cases refused.symm.trans read
    · cases refused.symm.trans limited
      exact fault isLimit

/-- An escape of no meaning, in a string of an object in an array in an object. -/
def unknownEscape : List Char := "\x7b\"pets\": [1, \x7b\"name\": \"A\\q\"\x7d]\x7d".toList

theorem offset_before_error_unknownEscape :
    (diagnose unknownEscape).offset? = some 24 ∧
      Viable "\x7b\"pets\": [1, \x7b\"name\": \"A".toList ∧ ∀ t, ¬ PaddedText t unknownEscape := by
  have placed : (diagnose unknownEscape).offset? = some 24 := by decide +kernel
  have front : unknownEscape.take (24 : Int).toNat = "\x7b\"pets\": [1, \x7b\"name\": \"A".toList := by
    decide +kernel
  obtain ⟨_, _, viable, _, noJson⟩ := offset_before_error placed
  exact ⟨placed, front ▸ viable, noJson⟩

end PayloadCheck.Json
