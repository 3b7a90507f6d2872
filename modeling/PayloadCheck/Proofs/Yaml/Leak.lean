import PayloadCheck.Proofs.Yaml.Blameless
import PayloadCheck.Proofs.Yaml.Writing

namespace PayloadCheck.Yaml

/-- The reading of a text ends with a fault of a value. An escape has no code point or the version is
none that is known, and the nodes are not read; or a scalar has no value; or a text that a content asks
for cannot be written. -/
inductive Leaks (depth : Int) (text : List Char) : ValueFault → Prop
  | escape : Node.ofText depth text = .error (.badValue .codePoint) → Leaks depth text .codePoint
  | version {major minor : Nat} :
      Node.ofText depth text = .error (.badValue (.unknownVersion major minor)) →
      Leaks depth text (.unknownVersion major minor)
  | scalar {version : Version} {root node : Node} {fault : ValueFault} :
      Node.ofText depth text = .ok (version, some root) →
      Relation.ReflTransGen (Node.Reaches version) root node → node.IsUnbuildable version fault →
      Leaks depth text fault
  | writing {version : Version} {root : Node} {content inner : Content} :
      Node.ofText depth text = .ok (version, some root) → root.content version = .ok content →
      Relation.ReflTransGen Content.Reaches content inner → inner.Unwritable →
      Leaks depth text .tooLongInteger

theorem read_badValue_iff {depth : Int} {text : List Char} {fault : ValueFault} :
    read depth text = .error (.badValue fault) ↔ Leaks depth text fault := by
  constructor
  · intro failed
    unfold read at failed
    split at failed
    · rename_i unread
      cases failed
      obtain rfl | ⟨major, minor, rfl⟩ := Node.ofText_badValue unread
      · exact .escape unread
      · exact .version unread
    · exact nomatch failed
    · rename_i nodes
      split at failed
      · rename_i unbuilt
        cases failed
        obtain ⟨node, reached, bad⟩ := content_badValue_iff.mp unbuilt
        exact .scalar nodes reached bad
      · rename_i built
        obtain ⟨rfl, inner, reached, unwritten⟩ := Content.value_badValue_iff.mp failed
        exact .writing nodes built reached unwritten
  · intro leaks
    unfold read
    cases leaks with
    | escape unread => rw [unread]
    | version unread => rw [unread]
    | scalar nodes reached bad =>
      simp only [nodes, content_badValue_iff.mpr ⟨_, reached, bad⟩]
    | writing nodes built reached unwritten =>
      simp only [nodes, built]
      exact Content.value_badValue_iff.mpr ⟨rfl, _, reached, unwritten⟩

end PayloadCheck.Yaml
