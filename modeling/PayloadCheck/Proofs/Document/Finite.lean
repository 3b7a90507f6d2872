import PayloadCheck.Proofs.Document.Extent
import PayloadCheck.Proofs.Json.BareLetter
import PayloadCheck.Proofs.Yaml.Doubles
import PayloadCheck.Proofs.Yaml.FloatText

namespace PayloadCheck.Document

open Json Number

/-- A text brings a number that is not finite into the document that is loaded from it. In a JSON text
this is a number too great for a double; in a YAML text, a scalar for a number with a fraction. -/
inductive Overflows (depth : Int) (text : List Char) : Prop
  | json {t : Tree} :
      isJson text = true → PaddedText t text → t.Within nestingLimit → t.Overflows →
      Overflows depth text
  | yaml {version : Yaml.Version} {root : Yaml.Node} {content : Yaml.Content} {x : Binary64} :
      isJson text = false → Yaml.Node.ofText depth text = .ok (version, some root) →
      root.content version = .ok content → root.HasFloat (Yaml.Writes version x) → content.Counts x →
      isFiniteNumber x = false → Overflows depth text

/-- A text writes one value at most. -/
theorem denotes_of_parse {text : List Char} {v : Value} (parsed : parse text = (.valid, v)) {t : Tree}
    (written : PaddedText t text) (within : t.Within nestingLimit) : Denotes t v := by
  obtain ⟨w, denotes⟩ := t.denotes
  have again := parse_of_tree written within denotes
  rw [parsed] at again
  cases again
  exact denotes

/-- A JSON text is read as a document by way of one of its trees. -/
theorem load_json_tree {limits : Limits} {text : List Char} {document : Value}
    (json : isJson text = true) (loaded : load limits text = .ok document) :
    parse text = (.valid, document) ∧ ∃ t, PaddedText t text ∧ t.Within nestingLimit := by
  obtain ⟨isDocument, read⟩ := load_ok loaded
  rw [if_pos json, readJson] at read
  split at read
  · rename_i v parsed
    cases read
    refine ⟨parsed, ?_⟩
    rcases parse_cases text with blank | ⟨t, _, written, within, _⟩ | ⟨_, _, _, refused⟩
    · rw [parse_of_blank blank] at parsed
      cases parsed
      cases isDocument.1
    · exact ⟨t, written, within⟩
    · rw [refused] at parsed
      cases parsed
  · cases read

/-- A YAML text is read as a document by way of what its nodes hold. -/
theorem load_yaml_content {limits : Limits} {text : List Char} {document : Value}
    (yaml : isJson text = false) (loaded : load limits text = .ok document) :
    ∃ version root content, Yaml.Node.ofText limits.depth text = .ok (version, some root) ∧
      root.content version = .ok content ∧ content.value = .ok document := by
  obtain ⟨isDocument, read⟩ := load_ok loaded
  rw [yaml, if_neg Bool.false_ne_true, readYaml] at read
  split at read
  · exact nomatch read
  split at read
  · cases read
    exact absurd isDocument.2 (by decide)
  · rename_i built
    cases read
    unfold Yaml.read at built
    split at built
    · exact nomatch built
    · cases built
      exact nomatch isDocument.1
    · rename_i version root nodes
      split at built
      · exact nomatch built
      · rename_i content held
        exact ⟨version, root, content, nodes, held, built⟩
  · exact nomatch read

theorem not_finite_iff {v : Value} :
    v.isFinite = false ↔ ∃ x, v.Holds (.float x) ∧ isFiniteNumber x = false := by
  rw [← Bool.not_eq_true, Value.isFinite_iff]
  simp

/-- A document holds a number that is not finite exactly where its text brings one in. -/
theorem load_isFinite_iff {limits : Limits} {text : List Char} {document : Value}
    (loaded : load limits text = .ok document) :
    document.isFinite = true ↔ ¬ Overflows limits.depth text := by
  cases json : isJson text with
  | true =>
    obtain ⟨parsed, t, written, within⟩ := load_json_tree json loaded
    rw [(denotes_of_parse parsed written within).isFinite_iff]
    refine not_congr ⟨.json json written within, ?_⟩
    rintro (⟨_, writtenToo, withinToo, overflows⟩ | ⟨yaml, _⟩)
    · have denotes := denotes_of_parse parsed writtenToo withinToo
      by_contra fits
      have finite := (denotes_of_parse parsed written within).isFinite_iff.mpr fits
      exact denotes.isFinite_iff.mp finite overflows
    · rw [json] at yaml
      exact nomatch yaml
  | false =>
    obtain ⟨version, root, content, nodes, held, built⟩ := load_yaml_content json loaded
    rw [← Bool.not_eq_false, not_finite_iff]
    refine not_congr ⟨?_, ?_⟩
    · rintro ⟨x, inside, other⟩
      have counts := (content.value_holds_float_iff built).mp inside
      exact .yaml json nodes held (root.accounts content held counts.holds) counts other
    · rintro (⟨isJson, _⟩ | ⟨_, nodesToo, heldToo, _, counts, other⟩)
      · rw [json] at isJson
        exact nomatch isJson
      · cases nodes.symm.trans nodesToo
        cases held.symm.trans heldToo
        exact ⟨_, (content.value_holds_float_iff built).mpr counts, other⟩

/-- In a YAML text of the current version it is a scalar that names infinity or no number at all, or
writes a decimal too great for a double. -/
theorem Overflows.hasFloat {depth : Int} {text : List Char} {root : Yaml.Node}
    (overflows : Overflows depth text) (yaml : isJson text = false)
    (nodes : Yaml.Node.ofText depth text = .ok (.current, some root)) :
    root.HasFloat Yaml.WritesNonfinite := by
  rcases overflows with ⟨json, _⟩ | ⟨_, nodesToo, _, has, _, other⟩
  · rw [yaml] at json
    exact nomatch json
  · cases nodes.symm.trans nodesToo
    refine has.mono fun scalar writes => ?_
    by_contra finite
    rw [(Yaml.float_isFinite_iff (Or.inl rfl) writes).mpr finite] at other
    exact nomatch other

/-- A loaded document stays inside JSON unless its text brings in a number that is not finite: all its
numbers are finite, and it can be read again once it is printed. A YAML text of the current version that
brings one in has a scalar of the float type that says so. -/
theorem load_stays_json_iff {limits : Limits} {text : List Char} {document : Value}
    (loaded : load limits text = .ok document) :
    ((∀ x, document.Holds (.float x) → isFiniteNumber x = true) ↔ ¬ Overflows limits.depth text) ∧
      (limits.depth ≤ nestingLimit → ∀ printed, render? 0 document = some printed →
        ((parse printed).1 = .valid ↔ ¬ Overflows limits.depth text)) ∧
      ∀ root, isJson text = false → Yaml.Node.ofText limits.depth text = .ok (.current, some root) →
        Overflows limits.depth text → root.HasFloat Yaml.WritesNonfinite := by
  refine ⟨?_, fun shallow printed shown => ?_,
    fun root yaml nodes overflows => overflows.hasFloat yaml nodes⟩
  · rw [← Value.isFinite_iff, load_isFinite_iff loaded]
  · have low : document.height ≤ nestingLimit := by
      have high := load_height loaded
      omega
    rw [parse_printed_iff low shown, load_isFinite_iff loaded]

/-- A YAML document with a name of infinity. -/
def infinityText : String := "paths: \x7b\x7d\nx: .inf\n"

/-- A JSON document with a number beyond the range of doubles. -/
def hugeText : String := "\x7b\"paths\": \x7b\x7d, \"x\": 1e400\x7d"

theorem load_stays_json_iff_infinityText :
    ∃ document, load {} infinityText.toList = .ok document ∧
      ((∀ x, document.Holds (.float x) → isFiniteNumber x = true) ↔ ¬ Overflows 64 infinityText.toList) ∧
      ∃ printed, render? 0 document = some printed ∧
        ((parse printed).1 = .valid ↔ ¬ Overflows 64 infinityText.toList) := by
  have shown : ((load {} infinityText.toList).toOption.bind (render? 0)).isSome = true := by
    decide +kernel
  cases loaded : load {} infinityText.toList with
  | error fault =>
    rw [loaded] at shown
    exact nomatch shown
  | ok document =>
    rw [loaded] at shown
    obtain ⟨printed, shown⟩ := Option.isSome_iff_exists.mp shown
    obtain ⟨numbers, reads, -⟩ := load_stays_json_iff loaded
    exact ⟨document, rfl, numbers, printed, shown, reads (by decide) printed shown⟩

/-- A text is loaded with infinity in its document, and what is printed of that is not read again. -/
def KeepsInfinity (text : String) : Prop :=
  ∃ document, load {} text.toList = .ok document ∧ document.Holds (.float (.infinite false)) ∧
    ∃ printed, render? 0 document = some printed ∧ (parse printed).1 ≠ .valid

theorem keepsInfinity_of_member {text name : String}
    (infinite : ((load {} text.toList).toOption.bind (·.get? name)).any
      (· matches .float (.infinite false)) = true)
    (shown : ((load {} text.toList).toOption.bind (render? 0)).isSome = true) : KeepsInfinity text := by
  cases loaded : load {} text.toList with
  | error fault =>
    rw [loaded] at shown
    exact nomatch shown
  | ok document =>
    rw [loaded] at infinite shown
    obtain ⟨v, found, isInfinite⟩ := (Option.any_eq_true _ _).mp infinite
    obtain ⟨printed, shown⟩ := Option.isSome_iff_exists.mp shown
    have held : document.Holds (.float (.infinite false)) := by
      split at isInfinite
      · exact .inside (Value.mem_children_of_get? found) .here
      · exact nomatch isInfinite
    have low : document.height ≤ nestingLimit :=
      Int.ofNat_le.mp (Int.le_trans (load_height loaded) (by decide))
    refine ⟨document, loaded, held, printed, shown, fun valid => ?_⟩
    have finite := (parse_printed_iff low shown).mp valid
    exact nomatch (Value.isFinite_iff document).mp finite _ held

theorem load_keeps_infinity : KeepsInfinity infinityText ∧ KeepsInfinity hugeText :=
  ⟨@keepsInfinity_of_member _ "x" (by decide +kernel) (by decide +kernel),
    @keepsInfinity_of_member _ "x" (by decide +kernel) (by decide +kernel)⟩

end PayloadCheck.Document
