import PayloadCheck.Schema.Node

namespace PayloadCheck.Schema

/-- The schemas that references name, and a bound on the number of entries behind them. -/
structure References (m : Type → Type) where
  lookup : String → m (Option Node)
  size : Nat

/-- References that are looked up alike however much room there is. -/
abbrev steady {m : Type → Type} (references : Option (References m)) : Nat → Option (References m) :=
  fun _ => references

variable {m : Type → Type} [Monad m]

/-- Follows references for at most `count` look-ups. A chain ends at a schema without a reference, at
one whose reference names nothing, and where it would follow a reference again. -/
def followFrom (lookup : String → m (Option Node)) :
    (count : Nat) → (followed : List String) → Node → m Node
  | 0, _, node => return node
  | count + 1, followed, node =>
    match node.ref with
    | none => return node
    | some ref =>
      if followed.contains ref then return node
      else do
        match ← lookup ref with
        | none => return node
        | some target => followFrom lookup count (ref :: followed) target

/-- The schema at the end of a chain of references. Without references to look up, a schema stands
for itself. -/
def follow (references : Option (References m)) (node : Node) : m Node :=
  match references with
  | none => return node
  | some table => followFrom table.lookup (table.size + 1) [] node

end PayloadCheck.Schema
