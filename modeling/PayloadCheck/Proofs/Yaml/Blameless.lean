import PayloadCheck.Yaml.Node
import PayloadCheck.Proofs.Yaml.Lexical

namespace PayloadCheck.Yaml

namespace Reader

/-- A step leaves the end of the tokens alone, and the value it fails by is the one that the tokens end
with, unless it is an unknown version. -/
structure Blameless {α : Type} (step : Reader α) : Prop where
  keeps {s t : Reading} {a : α} (done : step s = .ok (a, t)) : t.stream.failure = s.stream.failure
  blames {s : Reading} {fault : ValueFault} (failed : step s = .error (.badValue fault)) :
    s.stream.failure = some (.badValue fault) ∨ ∃ major minor, fault = .unknownVersion major minor

namespace Blameless

variable {α β : Type}

theorem pure (a : α) : Blameless (Pure.pure a : Reader α) where
  keeps done := by
    cases done
    rfl
  blames failed := nomatch failed

theorem bind {step : Reader α} {next : α → Reader β} (first : Blameless step)
    (second : ∀ a, Blameless (next a)) : Blameless (step >>= next) where
  keeps {s t b} done := by
    change Reader.bind step next s = .ok (b, t) at done
    unfold Reader.bind at done
    split at done
    · rename_i a middle stepped
      exact ((second a).keeps done).trans (first.keeps stepped)
    · exact nomatch done
  blames {s fault} failed := by
    change Reader.bind step next s = .error (.badValue fault) at failed
    unfold Reader.bind at failed
    split at failed
    · rename_i a middle stepped
      have same := first.keeps stepped
      have blamed := (second a).blames failed
      rwa [same] at blamed
    · rename_i stopped
      cases failed
      exact first.blames stopped

theorem ite {condition : Prop} [Decidable condition] {yes no : Reader α} (whenTrue : Blameless yes)
    (whenFalse : Blameless no) : Blameless (if condition then yes else no) := by
  split
  · exact whenTrue
  · exact whenFalse

theorem malformed (fault : Fault) (mark : Option Mark) :
    Blameless (fail (.malformed fault mark) : Reader α) where
  keeps done := nomatch done
  blames failed := nomatch failed

theorem «at» (fault : Fault) (mark : Mark) : Blameless (fail (.at fault mark) : Reader α) :=
  malformed fault (some mark)

theorem tooDeep : Blameless (fail .tooDeep : Reader α) where
  keeps done := nomatch done
  blames failed := nomatch failed

theorem beyondDepth : Blameless (fail .beyondDepth : Reader α) where
  keeps done := nomatch done
  blames failed := nomatch failed

theorem update {change : Reading → Reading}
    (same : ∀ s, (change s).stream.failure = s.stream.failure) : Blameless (update change) where
  keeps done := by
    cases done
    exact same _
  blames failed := nomatch failed

theorem state : Blameless state where
  keeps done := by
    cases done
    rfl
  blames failed := nomatch failed

theorem fuel : Blameless fuel where
  keeps done := by
    cases done
    rfl
  blames failed := nomatch failed

theorem peek : Blameless peek where
  keeps {s t token} done := by
    unfold Reader.peek at done
    split at done
    · cases done
      rfl
    · exact nomatch done
  blames {s fault} failed := by
    unfold Reader.peek at failed
    split at failed
    · exact nomatch failed
    · left
      cases ended : s.stream.failure with
      | none => simp [ended] at failed
      | some failure => simpa [ended] using failed

theorem advance : Blameless advance := update fun _ => rfl

theorem accept (kind : Token.Kind) : Blameless (accept kind) :=
  peek.bind fun _ => .ite (advance.bind fun _ => .pure _) (.pure _)

theorem remember (anchor : Option (List Char)) (node : Node) : Blameless (remember anchor node) := by
  cases anchor with
  | none => exact .pure _
  | some name => exact update fun _ => rfl

theorem scalarType (tag : Option (List Char)) (style : Style) (text : List Char) :
    Blameless (scalarType tag style text) := by
  unfold Reader.scalarType
  split
  · constructor
    · intro s t type done
      split at done
      · cases done
        rfl
      · exact nomatch done
    · intro s fault failed
      split at failed
      · exact nomatch failed
      · cases failed
        exact .inr ⟨_, _, rfl⟩
  · exact .pure _

theorem scalar (mark : Mark) (anchor tag : Option (List Char)) (style : Style) (text : List Char) :
    Blameless (scalar mark anchor tag style text) :=
  (scalarType tag style text).bind fun _ => (remember anchor _).bind fun _ => .pure _

theorem empty (mark : Mark) : Blameless (empty mark) := scalar mark none none .plain []

theorem fullTag (name : TagName) (mark : Mark) : Blameless (fullTag name mark) := by
  constructor
  · intro s t tag done
    unfold Reader.fullTag at done
    split at done
    · cases done
      rfl
    · split at done
      · cases done
        rfl
      · exact nomatch done
  · intro s fault failed
    unfold Reader.fullTag at failed
    split at failed
    · exact nomatch failed
    · split at failed
      · exact nomatch failed
      · exact nomatch failed

theorem properties : Blameless properties := by
  refine peek.bind fun first => ?_
  split
  · refine advance.bind fun _ => peek.bind fun second => ?_
    split
    · exact advance.bind fun _ => (fullTag _ _).bind fun _ => .pure _
    · exact .pure _
  · refine advance.bind fun _ => peek.bind fun second => ?_
    split
    · exact advance.bind fun _ => (fullTag _ _).bind fun _ => .pure _
    · exact (fullTag _ _).bind fun _ => .pure _
  · exact .pure _

section Collections

variable {inner : Context → Reader Node} (within : ∀ context, Blameless (inner context))
include within

theorem blockItems (n : Nat) : Blameless (blockItems inner n) := by
  induction n with
  | zero => exact .tooDeep
  | succ n ih =>
    refine peek.bind fun token => ?_
    split
    · refine advance.bind fun _ => peek.bind fun next => ?_
      split
      · exact (empty _).bind fun _ => ih.bind fun _ => .pure _
      · exact (empty _).bind fun _ => ih.bind fun _ => .pure _
      · exact (within _).bind fun _ => ih.bind fun _ => .pure _
    · exact advance.bind fun _ => .pure _
    · exact .at _ _

theorem columnItems (n : Nat) : Blameless (columnItems inner n) := by
  induction n with
  | zero => exact .tooDeep
  | succ n ih =>
    refine peek.bind fun token => .ite ?_ (.pure _)
    refine advance.bind fun _ => peek.bind fun next => ?_
    have onward (item : Node) : Blameless do return item :: (← Reader.columnItems inner n) :=
      ih.bind fun _ => .pure _
    split
    case h_5 => exact (within _).bind onward
    all_goals exact (empty _).bind onward

theorem blockPart (mark : Mark) : Blameless (blockPart inner mark) := by
  refine peek.bind fun next => ?_
  split
  case h_4 => exact within _
  all_goals exact empty _

theorem blockValue : Blameless (blockValue inner) :=
  peek.bind fun _ => .ite (advance.bind fun _ => blockPart within _) (empty _)

theorem blockEntries (n : Nat) : Blameless (blockEntries inner n) := by
  induction n with
  | zero => exact .tooDeep
  | succ n ih =>
    have onward (key : Node) : Blameless do
        let value ← Reader.blockValue inner
        return (key, value) :: (← Reader.blockEntries inner n) :=
      (blockValue within).bind fun _ => ih.bind fun _ => .pure _
    refine peek.bind fun token => ?_
    split
    · exact advance.bind fun _ => (blockPart within _).bind onward
    · exact advance.bind fun _ => .pure _
    · refine state.bind fun s => .ite ?_ (.at _ _)
      exact (empty _).bind onward

omit within in
theorem nextEntry (closing : Token.Kind) (mark : Char) (isFirst : Bool) :
    Blameless (nextEntry closing mark isFirst) := by
  refine peek.bind fun token => .ite ?_ (.ite (.pure _) (.ite ?_ (.at _ _)))
  · exact advance.bind fun _ => .pure _
  · exact advance.bind fun _ => (accept _).bind fun _ => .pure _

theorem flowPart (closing : Token.Kind) (mark : Mark) : Blameless (flowPart inner closing mark) :=
  peek.bind fun _ => .ite (empty _) (within _)

theorem flowValue (closing : Token.Kind) : Blameless (flowValue inner closing) :=
  peek.bind fun _ => .ite (advance.bind fun _ => flowPart within _ _) (empty _)

theorem flowKey (closing : Token.Kind) (mark : Mark) : Blameless (flowKey inner closing mark) :=
  peek.bind fun _ => .ite (empty _) (flowPart within _ _)

theorem squareItems (n : Nat) (isFirst : Bool) : Blameless (squareItems inner n isFirst) := by
  induction n generalizing isFirst with
  | zero => exact .tooDeep
  | succ n ih =>
    refine (nextEntry _ _ _).bind fun more => .ite ?_ (.pure _)
    exact peek.bind fun _ => (within _).bind fun _ => (ih _).bind fun _ => .pure _

theorem pairEntries : Blameless (pairEntries inner) :=
  peek.bind fun _ => advance.bind fun _ => (flowKey within _ _).bind fun _ =>
    (flowValue within _).bind fun _ => .pure _

theorem curlyEntries (n : Nat) (isFirst : Bool) : Blameless (curlyEntries inner n isFirst) := by
  induction n generalizing isFirst with
  | zero => exact .tooDeep
  | succ n ih =>
    have onward (entry : Node × Node) : Blameless do
        return entry :: (← Reader.curlyEntries inner n false) := (ih _).bind fun _ => .pure _
    refine (nextEntry _ _ _).bind fun more => .ite ?_ (.pure _)
    refine peek.bind fun token => state.bind fun s => .ite ?_ (.ite ?_ ?_)
    · exact advance.bind fun _ => (flowKey within _ _).bind fun _ => (flowValue within _).bind fun _ =>
        (pure _).bind onward
    · exact (empty _).bind fun _ => (flowValue within _).bind fun _ => (pure _).bind onward
    · exact (within _).bind fun _ => peek.bind fun _ => (empty _).bind fun _ => (pure _).bind onward

omit within in
theorem collection (mark : Mark) (p : Properties) (mayNest : Bool) {read : Reader Node}
    (reads : Blameless read) : Blameless (collection mark p mayNest read) := by
  have kept : Blameless do
      Reader.remember p.anchor (.enclosing mark)
      let node ← read
      Reader.remember p.anchor node
      return node :=
    (remember _ _).bind fun _ => reads.bind fun _ => (remember _ _).bind fun _ => .pure _
  exact .ite (beyondDepth.bind fun _ => kept) kept

theorem form? (mark : Mark) (p : Properties) (context : Context) (kind : Token.Kind)
    {read : Reader Node} (begun : form? inner mark p context kind = some read) : Blameless read := by
  have sequence {items : Reader (List Node)} (reads : Blameless items) : Blameless do
      return Node.sequence mark (collectionType p.tag .sequence) (← items) :=
    reads.bind fun _ => .pure _
  have mapping {entries : Reader (List (Node × Node))} (reads : Blameless entries) : Blameless do
      return Node.mapping mark (collectionType p.tag .mapping) (← entries) :=
    reads.bind fun _ => .pure _
  unfold Reader.form? at begun
  dsimp only at begun
  split at begun
  · split at begun
    · cases begun
      exact sequence (fuel.bind fun _ => columnItems within _)
    · exact nomatch begun
  · split at begun
    · cases begun
      exact mapping (pairEntries within)
    · exact nomatch begun
  · cases begun
    exact sequence (advance.bind fun _ => fuel.bind fun _ => squareItems within _ _)
  · cases begun
    exact mapping (advance.bind fun _ => fuel.bind fun _ => curlyEntries within _ _)
  · split at begun
    · exact nomatch begun
    · cases begun
      exact sequence (advance.bind fun _ => fuel.bind fun _ => blockItems within _)
  · split at begun
    · exact nomatch begun
    · cases begun
      exact mapping (advance.bind fun _ => fuel.bind fun _ => blockEntries within _)
  · exact nomatch begun

theorem nodeWith (mayNest : Bool) (context : Context) :
    Blameless (nodeWith inner mayNest context) := by
  refine peek.bind fun first => ?_
  split
  · refine advance.bind fun _ => state.bind fun s => ?_
    split
    · exact .pure _
    · exact .at _ _
  · refine properties.bind fun p => peek.bind fun token => ?_
    dsimp only
    split
    · exact advance.bind fun _ => scalar _ _ _ _ _
    · rename_i begun _
      exact collection _ _ _ (form? within _ _ _ _ begun)
    · exact .ite (scalar _ _ _ _ _) (.at _ _)

end Collections

theorem node (depth : Int) (budget : Nat) (context : Context) :
    Blameless (node depth budget context) := by
  induction budget generalizing context with
  | zero => exact .tooDeep
  | succ budget ih => exact nodeWith (fun context => ih context) _ context

theorem directives (n : Nat) (versionGiven : Bool) : Blameless (directives n versionGiven) := by
  induction n generalizing versionGiven with
  | zero => exact .tooDeep
  | succ n ih =>
    refine peek.bind fun token => ?_
    split
    · refine advance.bind fun _ => .ite (.at _ _) (.ite (.at _ _) ?_)
      exact (update (by exact fun _ => rfl)).bind fun _ => ih _
    · refine advance.bind fun _ => state.bind fun s => .ite (.at _ _) ?_
      exact (update (by exact fun _ => rfl)).bind fun _ => ih _
    · exact advance.bind fun _ => ih _
    · exact .pure _

theorem documentStart : Blameless documentStart := by
  refine (update (by exact fun _ => rfl)).bind fun _ => fuel.bind fun n => (directives n false).bind fun _ => ?_
  refine (update (by exact fun _ => rfl)).bind fun _ => peek.bind fun token => .ite ?_ (.at _ _)
  exact advance.bind fun _ => .pure _

theorem skipEnds (n : Nat) : Blameless (skipEnds n) := by
  induction n with
  | zero => exact .pure _
  | succ n ih => exact (accept _).bind fun _ => .ite ih (.pure _)

theorem firstDocument (depth : Int) : Blameless (firstDocument depth) := by
  have explicit : Blameless (firstDocument.explicit depth) := by
    refine documentStart.bind fun _ => peek.bind fun token => ?_
    split
    case h_5 => exact (node _ _ _).bind fun _ => .pure _
    all_goals exact (empty _).bind fun _ => .pure _
  refine peek.bind fun token => ?_
  split
  · exact .pure _
  · exact explicit
  · exact explicit
  · exact (node _ _ _).bind fun _ => .pure _

theorem noMore : Blameless noMore := by
  have another : Blameless noMore.another := documentStart.bind fun _ => .at _ _
  refine peek.bind fun ending => (accept _).bind fun isMarked => ?_
  -- All ways past the marker go on with the same steps.
  extract_lets onward
  have rest : ∀ u, Blameless (onward u) := by
    intro u
    refine state.bind fun s => peek.bind fun next => ?_
    split
    · exact .pure _
    · exact another
    · exact another
    · refine .ite (.at _ _) (fuel.bind fun n => ?_)
      refine (skipEnds n).bind fun _ => peek.bind fun last => ?_
      exact .ite another (.pure _)
  refine .ite ?_ (rest ())
  refine peek.bind fun next => .ite ?_ (rest ())
  exact (malformed _ _).bind rest

end Blameless

end Reader

/-- The values that the reading of the nodes of a text finds fault with. -/
theorem Node.ofText_badValue {depth : Int} {text : List Char} {fault : ValueFault}
    (failed : Node.ofText depth text = .error (.badValue fault)) :
    fault = .codePoint ∨ ∃ major minor, fault = .unknownVersion major minor := by
  unfold Node.ofText at failed
  extract_lets reading at failed
  have blameless : reading.Blameless := by
    refine (Reader.Blameless.firstDocument depth).bind fun root => .ite ?_ (.pure _)
    exact Reader.Blameless.noMore.bind fun _ => .pure _
  split at failed
  · exact nomatch failed
  · rename_i stopped
    cases failed
    obtain ended | unknown := blameless.blames stopped
    · exact .inl (TokenStream.ofText_lexical ended)
    · exact .inr unknown

end PayloadCheck.Yaml
