import PayloadCheck.Yaml.Node

namespace PayloadCheck.Yaml

/-- The tokens that a node may follow; the properties of a node may stand in any order. -/
def Token.Kind.opens : Token.Kind → Bool
  | .documentStart => true
  | .openSquare => true
  | .openCurly => true
  | .comma => true
  | .entry => true
  | .key => true
  | .value => true
  | .tag _ => true
  | _ => false

def Token.Kind.isAnchor : Token.Kind → Bool
  | .anchor _ => true
  | _ => false

/-- The tokens that no node follows, comments, anchors and the end aside. -/
def Token.Kind.closes : Token.Kind → Bool
  | .comment => false
  | .streamEnd => false
  | .anchor _ => false
  | kind => !kind.opens

/-- A node may begin behind some tokens, the last of which comes first. -/
def Opened (past : List Token) : Prop := past.head?.all (·.kind.opens) = true

/-- Among some tokens, the last of which comes first, every anchor stands where a node may begin. -/
def Seated : List Token → Prop
  | [] => True
  | token :: past => (token.kind.isAnchor = true → Opened past) ∧ Seated past

namespace Reader

theorem bind_ok {α β : Type} {step : Reader α} {next : α → Reader β} {s t : Reading} {b : β}
    (done : (step >>= next) s = .ok (b, t)) :
    ∃ a middle, step s = .ok (a, middle) ∧ next a middle = .ok (b, t) := by
  change Reader.bind step next s = .ok (b, t) at done
  unfold Reader.bind at done
  split at done
  · exact ⟨_, _, ‹_›, done⟩
  · cases done

theorem peek_ok {β : Type} {next : Token → Reader β} {s t : Reading} {b : β}
    (done : (peek >>= next) s = .ok (b, t)) :
    ∃ token, s.stream.tokens.head? = some token ∧ next token s = .ok (b, t) := by
  obtain ⟨token, middle, seen, further⟩ := bind_ok done
  unfold peek at seen
  split at seen
  · rename_i left
    cases seen
    exact ⟨_, by rw [left]; rfl, further⟩
  · cases seen

/-- Reading stands inside a list of tokens: the anchors passed stand where nodes may begin, and so may
the next one if it is said to. -/
def Stands (whole : List Token) (opened : Bool) (s : Reading) : Prop :=
  ∃ past, whole = past.reverse ++ s.stream.tokens ∧ Seated past ∧ (opened = true → Opened past)

/-- A step that begins before a token, if one is given, and passes only anchors that stand where nodes
may begin; here `before` and `after` tell whether a node may begin there. -/
def Takes {α : Type} (whole : List Token) (before : Bool) (ahead : Option Token) (step : Reader α)
    (after : α → Bool) : Prop :=
  ∀ s a t, step s = .ok (a, t) → (∀ token ∈ ahead, s.stream.tokens.head? = some token) →
    Stands whole before s → Stands whole (after a) t

/-- A step that passes no token. -/
def Still {α : Type} (step : Reader α) : Prop :=
  ∀ s a t, step s = .ok (a, t) → t.stream.tokens = s.stream.tokens

/-- Nothing is known about the end of a step. -/
def anywhere {α : Type} (_ : α) : Bool := false

@[simp] theorem anywhere_eq {α : Type} (a : α) : anywhere a = false := rfl

namespace Still

variable {α β : Type}

theorem pure (a : α) : Still (Pure.pure a : Reader α) := by
  rintro s b t ⟨⟩
  rfl

theorem bind {step : Reader α} {next : α → Reader β} (first : Still step)
    (second : ∀ a, Still (next a)) :
    Still (step >>= next) := by
  intro s b t done
  obtain ⟨a, middle, stepped, further⟩ := bind_ok done
  exact (second a _ _ _ further).trans (first _ _ _ stepped)

theorem state : Still state := by
  rintro s a t ⟨⟩
  rfl

theorem fuel : Still fuel := by
  rintro s a t ⟨⟩
  rfl

theorem update {change : Reading → Reading} (same : ∀ s, (change s).stream.tokens = s.stream.tokens) :
    Still (update change) := by
  rintro s a t ⟨⟩
  exact same s

theorem remember (anchor : Option (List Char)) (node : Node) : Still (remember anchor node) := by
  cases anchor with
  | none => exact .pure _
  | some name => exact update fun _ => rfl

theorem scalarType (tag : Option (List Char)) (style : Style) (text : List Char) :
    Still (scalarType tag style text) := by
  unfold Reader.scalarType
  split
  · intro s type t done
    dsimp only at done
    split at done
    · cases done
      rfl
    · cases done
  · exact .pure _

theorem scalar (mark : Mark) (anchor tag : Option (List Char)) (style : Style) (text : List Char) :
    Still (scalar mark anchor tag style text) :=
  (scalarType tag style text).bind fun _ => (remember anchor _).bind fun _ => .pure _

theorem empty (mark : Mark) : Still (empty mark) := scalar mark none none .plain []

theorem fullTag (name : TagName) (mark : Mark) : Still (fullTag name mark) := by
  intro s tag t done
  unfold Reader.fullTag at done
  split at done
  · cases done
    rfl
  · split at done
    · cases done
      rfl
    · cases done

end Still

namespace Takes

variable {whole : List Token} {before : Bool} {ahead : Option Token} {α β : Type}

theorem fail (failure : Failure) (after : α → Bool) :
    Takes whole before ahead (Reader.fail failure) after := by
  rintro s a t ⟨⟩

theorem pure {after : α → Bool} (a : α) (kept : after a = true → before = true) :
    Takes whole before ahead (Pure.pure a) after := by
  rintro s b t ⟨⟩ _ ⟨past, split, seated, opened⟩
  exact ⟨past, split, seated, fun goes => opened (kept goes)⟩

theorem done (a : α) : Takes whole before ahead (Pure.pure a) anywhere := pure a (by simp)

theorem bind {step : Reader α} {next : α → Reader β} {between : α → Bool} {after : β → Bool}
    (first : Takes whole before ahead step between)
    (second : ∀ a, Takes whole (between a) none (next a) after) :
    Takes whole before ahead (step >>= next) after := by
  intro s b t done here stands
  obtain ⟨a, middle, stepped, further⟩ := bind_ok done
  exact second a _ _ _ further (by simp) (first _ _ _ stepped here stands)

/-- A step that passes no token leaves what is ahead. -/
theorem still {step : Reader α} {next : α → Reader β} {after : β → Bool} (first : Still step)
    (second : ∀ a, Takes whole before ahead (next a) after) :
    Takes whole before ahead (step >>= next) after := by
  intro s b t done here stands
  obtain ⟨a, middle, stepped, further⟩ := bind_ok done
  have same := first _ _ _ stepped
  refine second a _ _ _ further ?_ ?_
  · rwa [same]
  · unfold Stands
    rwa [same]

theorem last {step : Reader α} (only : Still step) : Takes whole before ahead step anywhere := by
  rintro s a t done _ ⟨past, split, seated, _⟩
  exact ⟨past, (only _ _ _ done).symm ▸ split, seated, by simp⟩

theorem weaken {step : Reader α} {after : α → Bool} (takes : Takes whole false ahead step after) :
    Takes whole before ahead step after := by
  rintro s a t done here ⟨past, split, seated, _⟩
  exact takes s a t done here ⟨past, split, seated, by simp⟩

theorem failed (failure : Failure) (next : α → Reader β) (after : β → Bool) :
    Takes whole before ahead ((Reader.fail failure : Reader α) >>= next) after := by
  rintro s b t ⟨⟩

theorem ite {condition : Prop} [Decidable condition] {yes no : Reader α} {after : α → Bool}
    (whenTrue : condition → Takes whole before ahead yes after)
    (whenFalse : ¬ condition → Takes whole before ahead no after) :
    Takes whole before ahead (if condition then yes else no) after := by
  split
  · exact whenTrue ‹_›
  · exact whenFalse ‹_›

theorem peek {next : Token → Reader β} {after : β → Bool}
    (second : ∀ token, Takes whole before (some token) (next token) after) :
    Takes whole before ahead (Reader.peek >>= next) after := by
  intro s b t done _ stands
  obtain ⟨token, first, further⟩ := peek_ok done
  exact second token _ _ _ further (by simp [first]) stands

/-- The token that is ahead is the one that is seen. -/
theorem peekKnown {token : Token} {next : Token → Reader β} {after : β → Bool}
    (second : Takes whole before (some token) (next token) after) :
    Takes whole before (some token) (Reader.peek >>= next) after := by
  intro s b t done here stands
  obtain ⟨other, first, further⟩ := peek_ok done
  rw [here token rfl] at first
  cases first
  exact second _ _ _ further here stands

/-- Moving past a token that is no anchor. -/
theorem advance {token : Token} {kind : Token.Kind} (same : token.kind = kind)
    (other : kind.isAnchor = false) :
    Takes whole before (some token) Reader.advance fun _ => kind.opens := by
  rintro s _ t ⟨⟩ here ⟨past, split, seated, _⟩
  obtain ⟨rest, left⟩ := List.head?_eq_some_iff.mp (here token rfl)
  refine ⟨token :: past, ?_, ⟨?_, seated⟩, ?_⟩
  · simp [split, left]
  · simp [same, other]
  · simp [Opened, same]

/-- Moving past an anchor where a node may begin. -/
theorem advanceAnchor {token : Token} : Takes whole true (some token) Reader.advance anywhere := by
  rintro s _ t ⟨⟩ here ⟨past, split, seated, opened⟩
  obtain ⟨rest, left⟩ := List.head?_eq_some_iff.mp (here token rfl)
  exact ⟨token :: past, by simp [split, left], ⟨fun _ => opened rfl, seated⟩, by simp⟩

theorem accept {kind : Token.Kind} (other : kind.isAnchor = false) :
    Takes whole before ahead (Reader.accept kind) fun more => !more && before := by
  refine peek fun token => .ite (fun same => ?_) fun _ => pure _ (by simp)
  exact (advance same other).bind fun _ => pure _ (by simp)

/-- The properties of a node, at its start. -/
theorem properties : Takes whole true ahead Reader.properties anywhere := by
  refine peek fun first => ?_
  split
  · refine advanceAnchor.bind fun _ => peek fun second => ?_
    split
    · rename_i tag
      exact (advance tag rfl).bind fun _ => .still (.fullTag _ _) fun _ => done _
    · exact done _
  · rename_i tag
    refine (advance tag rfl).bind fun _ => peek fun second => ?_
    split
    · exact advanceAnchor.bind fun _ => .still (.fullTag _ _) fun _ => done _
    · exact .still (.fullTag _ _) fun _ => done _
  · exact done _

section Collections

variable {inner : Context → Reader Node}
  (within : ∀ context ahead, Takes whole true ahead (inner context) anywhere)
include within

theorem blockItems (n : Nat) : Takes whole before ahead (blockItems inner n) anywhere := by
  induction n generalizing before ahead with
  | zero => exact fail _ _
  | succ n ih =>
    refine peek fun token => ?_
    split
    · rename_i entry
      refine (advance entry rfl).bind fun _ => peek fun next => ?_
      split
      · exact .still (.empty _) fun _ => ih.bind fun _ => done _
      · exact .still (.empty _) fun _ => ih.bind fun _ => done _
      · exact (within _ _).bind fun _ => ih.bind fun _ => done _
    · rename_i ending
      exact (advance ending rfl).bind fun _ => done _
    · exact fail _ _

theorem columnItems (n : Nat) : Takes whole before ahead (columnItems inner n) anywhere := by
  induction n generalizing before ahead with
  | zero => exact fail _ _
  | succ n ih =>
    refine peek fun token => .ite (fun entry => ?_) fun _ => done _
    refine (advance entry rfl).bind fun _ => peek fun next => ?_
    have onward (opened : Bool) (next : Option Token) (item : Node) :
        Takes whole opened next (do return item :: (← Reader.columnItems inner n)) anywhere :=
      ih.bind fun _ => done _
    split
    case h_5 => exact (within _ _).bind (onward _ _)
    all_goals exact .still (.empty _) (onward _ _)

theorem blockPart (mark : Mark) : Takes whole true ahead (blockPart inner mark) anywhere := by
  refine peek fun next => ?_
  split
  case h_4 => exact within _ _
  all_goals exact last (.empty _)

theorem blockValue : Takes whole before ahead (blockValue inner) anywhere :=
  peek fun _ => .ite (fun value => (advance value rfl).bind fun _ => blockPart within _) fun _ =>
    last (.empty _)

theorem blockEntries (n : Nat) : Takes whole before ahead (blockEntries inner n) anywhere := by
  induction n generalizing before ahead with
  | zero => exact fail _ _
  | succ n ih =>
    have onward (opened : Bool) (next : Option Token) (key : Node) : Takes whole opened next (do
        let value ← Reader.blockValue inner
        return (key, value) :: (← Reader.blockEntries inner n)) anywhere :=
      (blockValue within).bind fun _ => ih.bind fun _ => done _
    refine peek fun token => ?_
    split
    · rename_i key
      exact (advance key rfl).bind fun _ => (blockPart within _).bind (onward _ _)
    · rename_i ending
      exact (advance ending rfl).bind fun _ => done _
    · refine .still .state fun s => .ite (fun _ => ?_) fun _ => fail _ _
      exact .still (.empty _) (onward _ _)

omit within in
/-- Where an entry follows, a node may begin: behind the opening bracket or a comma. -/
theorem nextEntry {closing : Token.Kind} (mark : Char) (isFirst : Bool)
    (other : closing.isAnchor = false) :
    Takes whole isFirst ahead (nextEntry closing mark isFirst) id := by
  refine peek fun token => .ite (fun closes => ?_) fun _ => .ite (fun first => ?_) fun _ =>
    .ite (fun comma => ?_) fun _ => fail _ _
  · exact (advance closes other).bind fun _ => pure _ (by simp)
  · exact pure _ fun _ => first
  · refine (advance comma rfl).bind fun _ => (accept other).bind fun more => ?_
    exact pure _ (by simp [Token.Kind.opens])

theorem flowPart (closing : Token.Kind) (mark : Mark) :
    Takes whole true ahead (flowPart inner closing mark) anywhere :=
  peek fun _ => .ite (fun _ => last (.empty _)) fun _ => within _ _

theorem flowValue (closing : Token.Kind) :
    Takes whole before ahead (flowValue inner closing) anywhere :=
  peek fun _ => .ite (fun value => (advance value rfl).bind fun _ => flowPart within _ _) fun _ =>
    last (.empty _)

theorem flowKey (closing : Token.Kind) (mark : Mark) :
    Takes whole true ahead (flowKey inner closing mark) anywhere :=
  peek fun _ => .ite (fun _ => last (.empty _)) fun _ => flowPart within _ _

theorem squareItems (n : Nat) (isFirst : Bool) :
    Takes whole isFirst ahead (squareItems inner n isFirst) anywhere := by
  induction n generalizing ahead isFirst with
  | zero => exact fail _ _
  | succ n ih =>
    refine (nextEntry _ _ rfl).bind fun more => ?_
    cases more with
    | false => exact done _
    | true => exact peek fun _ => (within _ _).bind fun _ => (ih false).bind fun _ => done _

theorem pairEntries {token : Token} (key : token.kind = .key) :
    Takes whole before (some token) (pairEntries inner) anywhere :=
  peekKnown ((advance key rfl).bind fun _ => (flowKey within _ _).bind fun _ =>
    (flowValue within _).bind fun _ => done _)

theorem curlyEntries (n : Nat) (isFirst : Bool) :
    Takes whole isFirst ahead (curlyEntries inner n isFirst) anywhere := by
  induction n generalizing ahead isFirst with
  | zero => exact fail _ _
  | succ n ih =>
    have onward (opened : Bool) (next : Option Token) (entry : Node × Node) :
        Takes whole opened next (do
          let entry ← (Pure.pure entry : Reader (Node × Node))
          return entry :: (← Reader.curlyEntries inner n false)) anywhere :=
      .still (.pure _) fun _ => ((ih false).bind fun _ => done _).weaken
    refine (nextEntry _ _ rfl).bind fun more => ?_
    cases more with
    | false => exact done _
    | true =>
      refine peek fun token => .still .state fun s => .ite (fun key => ?_) fun _ =>
        .ite (fun _ => ?_) fun _ => ?_
      · exact (advance key rfl).bind fun _ => (flowKey within _ _).bind fun _ =>
          (flowValue within _).bind fun _ => onward _ _ _
      · exact .still (.empty _) fun _ => (flowValue within _).bind fun _ => onward _ _ _
      · exact (within _ _).bind fun _ => peek fun _ => .still (.empty _) fun _ => onward _ _ _

omit within in
theorem collection (mark : Mark) (p : Properties) (mayNest : Bool) {read : Reader Node}
    (reads : Takes whole before ahead read anywhere) :
    Takes whole before ahead (collection mark p mayNest read) anywhere := by
  have kept : Takes whole before ahead (do
      Reader.remember p.anchor (.enclosing mark)
      let node ← read
      Reader.remember p.anchor node
      return node) anywhere :=
    .still (.remember _ _) fun _ => reads.bind fun _ => .still (.remember _ _) fun _ => done _
  exact .ite (fun _ => failed _ _ _) fun _ => kept

theorem form? (mark : Mark) (p : Properties) (context : Context) {token : Token}
    {read : Reader Node} (begun : form? inner mark p context token.kind = some read) :
    Takes whole before (some token) read anywhere := by
  have sequence {items : Reader (List Node)} (reads : Takes whole before (some token) items anywhere) :
      Takes whole before (some token) (do
        return Node.sequence mark (collectionType p.tag .sequence) (← items)) anywhere :=
    reads.bind fun _ => done _
  have mapping {entries : Reader (List (Node × Node))}
      (reads : Takes whole before (some token) entries anywhere) : Takes whole before (some token) (do
        return Node.mapping mark (collectionType p.tag .mapping) (← entries)) anywhere :=
    reads.bind fun _ => done _
  unfold Reader.form? at begun
  dsimp only at begun
  split at begun
  · split at begun
    · cases begun
      exact sequence (.still .fuel fun _ => columnItems within _)
    · cases begun
  · rename_i key
    split at begun
    · cases begun
      exact mapping (pairEntries within key)
    · cases begun
  · rename_i square
    cases begun
    exact sequence ((advance square rfl).bind fun _ => .still .fuel fun _ => squareItems within _ true)
  · rename_i curly
    cases begun
    exact mapping ((advance curly rfl).bind fun _ => .still .fuel fun _ => curlyEntries within _ true)
  · rename_i block
    split at begun
    · cases begun
    · cases begun
      exact sequence ((advance block rfl).bind fun _ => .still .fuel fun _ => blockItems within _)
  · rename_i block
    split at begun
    · cases begun
    · cases begun
      exact mapping ((advance block rfl).bind fun _ => .still .fuel fun _ => blockEntries within _)
  · cases begun

theorem nodeWith (mayNest : Bool) (context : Context) :
    Takes whole true ahead (nodeWith inner mayNest context) anywhere := by
  refine peek fun first => ?_
  split
  · rename_i name
    refine (advance name rfl).bind fun _ => .still .state fun s => ?_
    split
    · exact done _
    · exact fail _ _
  · refine properties.bind fun p => peek fun token => ?_
    dsimp only
    split
    · rename_i plain
      exact (advance plain rfl).bind fun _ => last (.scalar _ _ _ _ _)
    · rename_i begun _
      exact collection _ _ _ (form? within _ _ _ begun)
    · exact .ite (fun _ => last (.scalar _ _ _ _ _)) fun _ => fail _ _

end Collections

theorem node (depth : Int) (budget : Nat) (context : Context) (ahead : Option Token) :
    Takes whole true ahead (node depth budget context) anywhere := by
  induction budget generalizing context ahead with
  | zero => exact fail _ _
  | succ budget ih => exact nodeWith (fun context ahead => ih context ahead) _ context

theorem directives (n : Nat) (versionGiven : Bool) :
    Takes whole before ahead (directives n versionGiven) anywhere := by
  induction n generalizing before ahead versionGiven with
  | zero => exact fail _ _
  | succ n ih =>
    refine peek fun token => ?_
    split
    · rename_i directive
      refine (advance directive rfl).bind fun _ => .ite (fun _ => fail _ _) fun _ =>
        .ite (fun _ => fail _ _) fun _ => ?_
      exact .still (.update fun _ => rfl) fun _ => ih _
    · rename_i directive
      refine (advance directive rfl).bind fun _ => .still .state fun s => ?_
      refine .ite (fun _ => fail _ _) fun _ => ?_
      exact .still (.update fun _ => rfl) fun _ => ih _
    · rename_i directive
      exact (advance directive rfl).bind fun _ => ih _
    · exact done _

/-- A node may begin behind the start of a document. -/
theorem documentStart : Takes whole before ahead documentStart fun _ => true := by
  refine .still (.update fun _ => rfl) fun _ => .still .fuel fun n => ?_
  refine (directives n false).bind fun _ => ?_
  refine .still (.update fun _ => rfl) fun _ => peek fun token => .ite (fun start => ?_) fun _ => fail _ _
  exact (advance start rfl).bind fun _ => pure _ fun _ => rfl

theorem skipEnds (n : Nat) : Takes whole before ahead (skipEnds n) anywhere := by
  induction n generalizing before ahead with
  | zero => exact done _
  | succ n ih => exact (accept rfl).bind fun _ => .ite (fun _ => ih) fun _ => done _

theorem firstDocument (depth : Int) : Takes whole true ahead (firstDocument depth) anywhere := by
  have explicit (ahead : Option Token) :
      Takes whole true ahead (firstDocument.explicit depth) anywhere := by
    refine documentStart.bind fun _ => peek fun token => ?_
    split
    case h_5 => exact (node _ _ _ _).bind fun _ => done _
    all_goals exact .still (.empty _) fun _ => done _
  refine peek fun token => ?_
  split
  · exact done _
  · exact explicit _
  · exact explicit _
  · exact (node _ _ _ _).bind fun _ => done _

theorem noMore : Takes whole before ahead noMore anywhere := by
  have another {before : Bool} {ahead : Option Token} :
      Takes whole before ahead noMore.another anywhere :=
    documentStart.bind fun _ => fail _ _
  refine peek fun ending => (accept rfl).bind fun isMarked => ?_
  -- All ways past the marker go on with the same steps.
  extract_lets onward
  have rest {before : Bool} {ahead : Option Token} (u : PUnit) :
      Takes whole before ahead (onward u) anywhere := by
    refine .still .state fun s => peek fun next => ?_
    split
    · exact done _
    · exact another
    · exact another
    · refine .ite (fun _ => fail _ _) fun _ => .still .fuel fun n => (skipEnds n).bind fun _ => ?_
      exact peek fun last => .ite (fun _ => another) fun _ => done _
  refine .ite (fun _ => ?_) fun _ => rest ()
  exact peek fun next => .ite (fun _ => failed _ _ _) fun _ => rest ()

end Takes

/-- Nothing but the end of the text is left. -/
def AtEnd (s : Reading) : Prop := ∃ token, s.stream.tokens.head? = some token ∧ token.kind = .streamEnd

/-- A step, begun before a token if one is given, yields certain results only at the end of the text. -/
def Halts {α : Type} (certain : α → Bool) (ahead : Option Token) (step : Reader α) : Prop :=
  ∀ s a t, step s = .ok (a, t) → certain a = true →
    (∀ token ∈ ahead, s.stream.tokens.head? = some token) → AtEnd t

namespace Halts

variable {ahead : Option Token} {α β : Type} {certain : α → Bool}

theorem atEnd {step : Reader α} {s t : Reading} {a : α} (halts : Halts certain none step)
    (done : step s = .ok (a, t)) (sure : certain a = true) : AtEnd t :=
  halts s a t done sure (by simp)

theorem fail (failure : Failure) : Halts certain ahead (Reader.fail failure) := by
  rintro s a t ⟨⟩

theorem ending {token : Token} (ending : token.kind = .streamEnd) (a : α) :
    Halts certain (some token) (Pure.pure a) := by
  rintro s b t ⟨⟩ _ here
  exact ⟨token, here token rfl, ending⟩

theorem other {a : α} (uncertain : certain a = false) : Halts certain ahead (Pure.pure a) := by
  rintro s b t ⟨⟩ sure
  rw [uncertain] at sure
  cases sure

theorem bind {step : Reader β} {next : β → Reader α} (second : ∀ b, Halts certain none (next b)) :
    Halts certain ahead (step >>= next) := by
  intro s a t done sure _
  obtain ⟨b, middle, _, further⟩ := bind_ok done
  exact (second b).atEnd further sure

theorem ite {condition : Prop} [Decidable condition] {yes no : Reader α}
    (whenTrue : condition → Halts certain ahead yes)
    (whenFalse : ¬ condition → Halts certain ahead no) :
    Halts certain ahead (if condition then yes else no) := by
  split
  · exact whenTrue ‹_›
  · exact whenFalse ‹_›

theorem peek {next : Token → Reader α} (second : ∀ token, Halts certain (some token) (next token)) :
    Halts certain ahead (Reader.peek >>= next) := by
  intro s a t done sure _
  obtain ⟨token, first, further⟩ := peek_ok done
  exact second token _ _ _ further sure (by simp [first])

/-- There is no first document only where the text ends at once. -/
theorem firstDocument (depth : Int) : Halts Option.isNone ahead (firstDocument depth) := by
  have explicit {ahead : Option Token} : Halts Option.isNone ahead (firstDocument.explicit depth) := by
    refine bind fun _ => peek fun token => ?_
    split <;> exact bind fun _ => other rfl
  refine peek fun token => ?_
  split
  · exact ending ‹_› none
  · exact explicit
  · exact explicit
  · exact bind fun _ => other rfl

theorem noMore : Halts (fun _ => true) ahead noMore := by
  have another {ahead : Option Token} : Halts (fun _ => true) ahead noMore.another :=
    bind fun _ => fail _
  refine bind fun _ => bind fun isMarked => ?_
  extract_lets onward
  have rest {ahead : Option Token} : Halts (fun _ => true) ahead (onward ()) := by
    refine bind fun s => peek fun next => ?_
    split
    · exact ending ‹_› ()
    · exact another
    · exact another
    · refine ite (fun _ => fail _) fun _ => bind fun n => bind fun _ => peek fun last => ?_
      exact ite (fun _ => another) fun last => ending (Decidable.of_not_not last) ()
  refine ite (fun _ => ?_) fun _ => rest
  exact bind fun next => ite (fun _ => bind fun _ => rest) fun _ => rest

end Halts

end Reader

/-- Where the nodes of a text are read, its tokens up to the end are such that every anchor stands where
a node may begin. -/
theorem Node.ofText_seated {depth : Int} {text : List Char} {version : Version} {root : Option Node}
    (read : Node.ofText depth text = .ok (version, root)) :
    ∃ past last rest, (TokenStream.ofText text).tokens = past.reverse ++ last :: rest ∧
      last.kind = .streamEnd ∧ Seated past := by
  unfold Node.ofText at read
  extract_lets reading at read
  split at read
  · rename_i found t done
    have takes : Reader.Takes (TokenStream.ofText text).tokens true none reading Reader.anywhere := by
      refine (Reader.Takes.firstDocument depth).bind fun root => .ite (fun _ => ?_) fun _ => .done _
      exact Reader.Takes.noMore.bind fun _ => .done _
    have ended : Reader.AtEnd t := by
      obtain ⟨root, middle, first, further⟩ := Reader.bind_ok done
      cases root with
      | none =>
        cases further
        exact (Reader.Halts.firstDocument depth).atEnd first rfl
      | some root =>
        obtain ⟨_, _, finished, last⟩ := Reader.bind_ok further
        cases last
        exact Reader.Halts.noMore.atEnd finished rfl
    obtain ⟨past, split, seated, -⟩ :=
      takes _ _ _ done (by simp) ⟨[], rfl, trivial, by simp [Opened]⟩
    obtain ⟨last, first, ending⟩ := ended
    obtain ⟨rest, left⟩ := List.head?_eq_some_iff.mp first
    exact ⟨past, last, rest, by rw [split, left], ending, seated⟩
  · cases read

end PayloadCheck.Yaml
