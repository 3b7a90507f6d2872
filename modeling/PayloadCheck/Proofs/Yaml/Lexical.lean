import PayloadCheck.Yaml.Lexing

namespace PayloadCheck.Yaml

/-- A result fails by no other value than that of a code point. -/
def Lexical {α : Type} (result : Except Failure α) : Prop :=
  ∀ fault, result = .error (.badValue fault) → fault = .codePoint

namespace Lexical

variable {α β : Type} {result : Except Failure α}

theorem ok {a : α} : Lexical (.ok a) := fun _ failed => nomatch failed

theorem malformed {fault : Fault} {mark : Option Mark} :
    Lexical (.error (.malformed fault mark) : Except Failure α) := fun _ failed => nomatch failed

/-- A failure may be passed on. -/
theorem passed {failure : Failure} (lexical : Lexical result) (failed : result = .error failure) :
    Lexical (.error failure : Except Failure β) := by
  intro fault same
  cases same
  exact lexical fault failed

theorem map {f : α → β} (lexical : Lexical result) : Lexical (result.map f) := by
  cases result with
  | ok a => exact ok
  | error failure => exact lexical.passed rfl

end Lexical

theorem quotedBreaks_lexical (fuel : Nat) (c : Cursor) : Lexical (quotedBreaks fuel c) := by
  fun_induction quotedBreaks fuel c with
  | case1 | case3 | case4 => exact .ok
  | case2 => exact .malformed
  | case5 _ _ _ _ _ _ _ _ failed ih => exact ih.passed failed

theorem quotedGap_lexical (c : Cursor) : Lexical (quotedGap c) := by
  fun_cases quotedGap c with
  | case1 | case4 => exact .ok
  | case2 => exact (quotedBreaks_lexical _ _).passed ‹_›
  | case3 => exact .malformed

theorem readDigits_lexical (width : Nat) (c : Cursor) : Lexical (readDigits width c) := by
  fun_cases readDigits width c with
  | case1 => exact .malformed
  | case2 =>
    intro fault same
    cases same
    rfl
  | case3 | case4 | case5 => exact .ok

theorem readEscape_lexical (c : Cursor) : Lexical (readEscape c) := by
  fun_cases readEscape c with
  | case1 => exact .ok
  | case2 => exact readDigits_lexical _ _
  | case3 => exact quotedBreaks_lexical _ _
  | case4 => exact .malformed

theorem quotedPiece_lexical (closing : Char) (c : Cursor) : Lexical (quotedPiece closing c) := by
  fun_cases quotedPiece closing c with
  | case1 | case2 | case3 | case5 => exact .ok
  | case4 => exact (readEscape_lexical _).map
  | case6 => exact (quotedGap_lexical _).map

theorem quotedRest_lexical (closing : Char) (fuel : Nat) (c : Cursor) :
    Lexical (quotedRest closing fuel c) := by
  fun_induction quotedRest closing fuel c with
  | case1 => exact .malformed
  | case2 => exact (quotedPiece_lexical _ _).passed ‹_›
  | case3 | case4 => exact .ok
  | case5 _ _ _ _ _ _ failed ih => exact ih.passed failed

theorem readQuoted_lexical (c : Cursor) : Lexical (readQuoted c) := quotedRest_lexical _ _ _

theorem readAnchor_lexical (c : Cursor) : Lexical (readAnchor c) := by
  fun_cases readAnchor c with
  | case1 => exact .malformed
  | case2 => exact .ok

theorem readAddress_lexical (v : Version) (c : Cursor) : Lexical (readAddress v c) := by
  fun_cases readAddress v c with
  | case1 | case3 => exact .malformed
  | case2 => exact .ok

theorem readHandle_lexical (c : Cursor) : Lexical (readHandle c) := by
  fun_cases readHandle c with
  | case1 | case3 => exact .malformed
  | case2 | case4 => exact .ok

theorem readTagFrom_lexical (v : Version) (handle : List Char) (c : Cursor) :
    Lexical (readTagFrom v handle c) := by
  fun_cases readTagFrom v handle c with
  | case1 => exact (readAddress_lexical _ _).passed ‹_›
  | case2 | case4 => exact .ok
  | case3 => exact .malformed
  | case5 => exact (readHandle_lexical _).passed ‹_›
  | case6 | case7 => exact (readAddress_lexical _ _).map

theorem readTag_lexical (v : Version) (c : Cursor) : Lexical (readTag v c) := by
  have named : Lexical
      (if c.peekAt 1 == '!' then readTagFrom v ['!', '!'] c.next else readTagFrom v ['!'] c) := by
    split <;> exact readTagFrom_lexical _ _ _
  fun_cases readTag v c with
  | case1 => exact named.passed ‹_›
  | case2 => exact .ok
  | case3 => exact .malformed

theorem readNumber_lexical (c : Cursor) : Lexical (readNumber c) := by
  fun_cases readNumber c with
  | case1 => exact .malformed
  | case2 => exact .ok

theorem readVersion_lexical (c : Cursor) : Lexical (readVersion c) := by
  fun_cases readVersion c with
  | case1 | case3 => exact (readNumber_lexical _).passed ‹_›
  | case2 | case5 => exact .malformed
  | case4 => exact .ok

theorem readDeclaration_lexical (v : Version) (c : Cursor) : Lexical (readDeclaration v c) := by
  fun_cases readDeclaration v c with
  | case1 => exact (readHandle_lexical _).passed ‹_›
  | case2 | case5 => exact .malformed
  | case3 => exact (readAddress_lexical _ _).passed ‹_›
  | case4 => exact .ok

theorem readDirective_lexical (v : Version) (c : Cursor) : Lexical (readDirective v c) := by
  fun_cases readDirective v c with
  | case1 | case4 => exact .malformed
  | case2 _ name after _ body _ failed =>
    have declared : Lexical body := by
      dsimp only [body]
      split
      · exact readVersion_lexical _
      · split
        · exact readDeclaration_lexical _ _
        · exact .ok
    exact declared.passed failed
  | case3 => exact .ok

theorem readIncrement_lexical (c : Cursor) : Lexical (readIncrement c) := by
  fun_cases readIncrement c with
  | case1 => exact .malformed
  | case2 | case3 => exact .ok

theorem readIndicators_lexical (c : Cursor) : Lexical (readIndicators c) := by
  fun_cases readIndicators c with
  | case1 => exact (readIncrement_lexical _).map
  | case2 => exact (readIncrement_lexical _).passed ‹_›
  | case3 | case4 | case5 => exact .ok

theorem readHeader_lexical (c : Cursor) : Lexical (readHeader c) := by
  fun_cases readHeader c with
  | case1 => exact (readIndicators_lexical _).passed ‹_›
  | case2 | case3 => exact .malformed
  | case4 => exact .ok

theorem blockIndent_lexical (least : Nat) (header : BlockHeader) (c : Cursor) :
    Lexical (blockIndent least header c) := by
  fun_cases blockIndent least header c with
  | case1 | case3 => exact .ok
  | case2 => exact .malformed

theorem readBlock_lexical (isFolded : Bool) (least : Nat) (c : Cursor) :
    Lexical (readBlock isFolded least c) := by
  fun_cases readBlock isFolded least c with
  | case1 => exact (readHeader_lexical _).passed ‹_›
  | case2 => exact (blockIndent_lexical _ _ _).passed ‹_›
  | case3 => exact .ok

namespace Lexing

theorem dropKey_lexical (s : Lexing) : Lexical s.dropKey := by
  fun_cases dropKey s with
  | case1 => exact .malformed
  | case2 => exact .ok

theorem dropStale_lexical (s : Lexing) : Lexical s.dropStale := by
  fun_cases dropStale s with
  | case1 => exact .malformed
  | case2 => exact .ok

theorem saveKey_lexical (s : Lexing) : Lexical s.saveKey := by
  fun_cases saveKey s with
  | case1 => exact (dropKey_lexical _).passed ‹_›
  | case2 | case3 => exact .ok

theorem endStream_lexical (s : Lexing) : Lexical s.endStream := by
  fun_cases endStream s with
  | case1 => exact (dropKey_lexical _).passed ‹_›
  | case2 => exact .ok

theorem marker_lexical (s : Lexing) (kind : Token.Kind) : Lexical (s.marker kind) := by
  fun_cases marker s kind with
  | case1 => exact (dropKey_lexical _).passed ‹_›
  | case2 => exact .ok

theorem directive_lexical (s : Lexing) : Lexical s.directive := by
  fun_cases directive s with
  | case1 => exact (dropKey_lexical _).passed ‹_›
  | case2 => exact (readDirective_lexical _ _).passed ‹_›
  | case3 => exact .ok

theorem openBracket_lexical (s : Lexing) (square : Bool) : Lexical (s.openBracket square) := by
  fun_cases openBracket s square with
  | case1 => exact (saveKey_lexical _).passed ‹_›
  | case2 => exact .ok

theorem closeBracket_lexical (s : Lexing) (kind : Token.Kind) : Lexical (s.closeBracket kind) := by
  fun_cases closeBracket s kind with
  | case1 => exact (dropKey_lexical _).passed ‹_›
  | case2 => exact .ok

theorem comma_lexical (s : Lexing) : Lexical s.comma := by
  fun_cases comma s with
  | case1 => exact (dropKey_lexical _).passed ‹_›
  | case2 => exact .ok

theorem entry_lexical (s : Lexing) : Lexical s.entry := by
  fun_cases entry s with
  | case1 => exact .malformed
  | case2 => exact (dropKey_lexical _).passed ‹_›
  | case3 => exact .ok

theorem explicitKey_lexical (s : Lexing) : Lexical s.explicitKey := by
  fun_cases explicitKey s with
  | case1 => exact .malformed
  | case2 => exact (dropKey_lexical _).passed ‹_›
  | case3 => exact .ok

theorem value_lexical (s : Lexing) : Lexical s.value := by
  fun_cases value s with
  | case1 | case3 => exact .ok
  | case2 => exact .malformed

theorem keyToken_lexical (s : Lexing) {read : Cursor → Except Failure (Token.Kind × Cursor)}
    (lexical : ∀ c, Lexical (read c)) : Lexical (s.keyToken read) := by
  fun_cases keyToken s read with
  | case1 => exact (saveKey_lexical _).passed ‹_›
  | case2 => exact (lexical _).passed ‹_›
  | case3 => exact .ok

theorem plain_lexical (s : Lexing) : Lexical s.plain := by
  fun_cases plain s with
  | case1 => exact (saveKey_lexical _).passed ‹_›
  | case2 => exact .ok

theorem block_lexical (s : Lexing) (isFolded : Bool) : Lexical (s.block isFolded) := by
  fun_cases block s isFolded with
  | case1 => exact (dropKey_lexical _).passed ‹_›
  | case2 => exact (readBlock_lexical _ _ _).passed ‹_›
  | case3 => exact .ok

theorem token_lexical (s : Lexing) : Lexical s.token := by
  fun_cases token s with
  | case1 => exact endStream_lexical s
  | case2 => exact directive_lexical s
  | case3 => exact marker_lexical s _
  | case4 | case5 => exact openBracket_lexical s _
  | case6 | case7 => exact closeBracket_lexical s _
  | case8 => exact comma_lexical s
  | case9 => exact entry_lexical s
  | case10 => exact explicitKey_lexical s
  | case11 => exact value_lexical s
  | case12 | case13 => exact keyToken_lexical s fun c => (readAnchor_lexical c).map
  | case14 => exact keyToken_lexical s fun c => (readTag_lexical _ c).map
  | case15 => exact block_lexical s _
  | case16 => exact keyToken_lexical s fun c => (readQuoted_lexical c).map
  | case17 => exact plain_lexical s
  | case18 => exact .malformed

theorem step_lexical (s : Lexing) : Lexical s.step := by
  fun_cases step s with
  | case1 | case5 => exact dropStale_lexical _
  | case2 => exact (dropStale_lexical _).passed ‹_›
  | case3 => exact (token_lexical _).passed ‹_›
  | case4 => exact .ok

theorem run_lexical (fuel : Nat) (s : Lexing) {fault : ValueFault}
    (failed : (s.run fuel).failure = some (.badValue fault)) : fault = .codePoint := by
  fun_induction run fuel s with
  | case1 => exact nomatch failed
  | case2 _ s failure stopped =>
    cases failed
    exact step_lexical s fault stopped
  | case3 => exact nomatch failed
  | case4 _ _ _ _ _ ih => exact ih failed

end Lexing

/-- The tokens of a text end with no other fault of a value than that of a code point. -/
theorem TokenStream.ofText_lexical {text : List Char} {fault : ValueFault}
    (failed : (ofText text).failure = some (.badValue fault)) : fault = .codePoint := by
  unfold ofText at failed
  split at failed
  · exact nomatch failed
  · exact Lexing.run_lexical _ _ failed

end PayloadCheck.Yaml
