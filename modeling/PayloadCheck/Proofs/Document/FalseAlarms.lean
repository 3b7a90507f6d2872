import Mathlib.Data.List.Induction
import PayloadCheck.Proofs.Document.Anchors
import PayloadCheck.Proofs.Yaml.Coverage

namespace PayloadCheck.Document

/-- A node could stand behind a text: the text ends with blanks that begin a line or follow a bracket or a
comma, or with blanks, one at least, that follow an indicator. -/
inductive StandsOpen : List Char → Prop
  | start {blanks : List Char} : blanks.all isSpacing = true → StandsOpen blanks
  | opener {front blanks : List Char} {ch : Char} :
      opensNode ch = true → blanks.all isSpacing = true → StandsOpen (front ++ ch :: blanks)
  | indicator {front blanks : List Char} {ch : Char} :
      isIndicator ch = true → blanks ≠ [] → blanks.all isSpacing = true → StandsOpen (front ++ ch :: blanks)

theorem StandsOpen.blank {before : List Char} {ch : Char} (stands : StandsOpen before)
    (spacing : isSpacing ch = true) : StandsOpen (before ++ [ch]) := by
  have longer {blanks : List Char} (blank : blanks.all isSpacing = true) :
      (blanks ++ [ch]).all isSpacing = true := by
    simp [blank, spacing]
  cases stands with
  | start blank => exact .start (longer blank)
  | opener opens blank =>
    rw [List.append_assoc, List.cons_append]
    exact .opener opens (longer blank)
  | indicator indicates _ blank =>
    rw [List.append_assoc, List.cons_append]
    exact .indicator indicates (by simp) (longer blank)

namespace Opening

theorem run_concat (opening : Opening) (before : List Char) (ch : Char) :
    opening.run (before ++ [ch]) = (opening.run before).after ch :=
  run_append opening before [ch]

/-- Only right behind an indicator a space is still missing. -/
theorem isIndicator_of_run {before : List Char} (missing : run .open before = .afterSpace) :
    ∃ front ch, before = front ++ [ch] ∧ isIndicator ch = true := by
  obtain rfl | ⟨front, ch, rfl⟩ := before.eq_nil_or_concat'
  · exact nomatch missing
  refine ⟨front, ch, rfl, ?_⟩
  rw [run_concat] at missing
  by_contra other
  rw [Bool.not_eq_true] at other
  cases opens : opensNode ch with
  | true =>
    rw [after_opensNode opens] at missing
    exact nomatch missing
  | false =>
    cases spacing : isSpacing ch with
    | true =>
      rw [after_spacing spacing] at missing
      split at missing <;> exact nomatch missing
    | false =>
      rw [after_other opens other spacing] at missing
      exact nomatch missing

theorem standsOpen_of_run {before : List Char} (isOpen : run .open before = .open) : StandsOpen before := by
  induction before using List.reverseRecOn with
  | nil => exact .start rfl
  | append_singleton front ch ih =>
    rw [run_concat] at isOpen
    by_cases opens : opensNode ch = true
    · exact .opener opens rfl
    by_cases indicates : isIndicator ch = true
    · rw [after_isIndicator indicates] at isOpen
      exact nomatch isOpen
    by_cases spacing : isSpacing ch = true
    · match state : run .open front with
      | .open => exact (ih state).blank spacing
      | .afterSpace =>
        obtain ⟨start, indicator, rfl, indicates⟩ := isIndicator_of_run state
        rw [List.append_assoc, List.singleton_append]
        exact .indicator indicates (by simp) (by simp [spacing])
      | .closed =>
        rw [state, after_spacing spacing, if_pos rfl] at isOpen
        exact nomatch isOpen
    · rw [Bool.not_eq_true] at opens indicates spacing
      rw [after_other opens indicates spacing] at isOpen
      exact nomatch isOpen

/-- The search is ready for an anchor exactly where a node could stand. -/
theorem run_open_iff {before : List Char} : run .open before = .open ↔ StandsOpen before := by
  refine ⟨standsOpen_of_run, fun stands => ?_⟩
  cases stands with
  | start blank => exact run_open blank
  | opener opens blank => rw [run_append, run_cons, after_opensNode opens, run_open blank]
  | indicator indicates some blank =>
    rw [run_append, run_cons, after_isIndicator indicates, run_afterSpace blank some]

end Opening

theorem readYaml_anchors_iff {depth : Int} {text : List Char} :
    readYaml depth text = .error .anchors ↔ holdsAnchor text = true := by
  unfold readYaml
  cases holdsAnchor text with
  | true => exact iff_of_true rfl rfl
  | false =>
    rw [if_neg Bool.false_ne_true]
    refine iff_of_false ?_ Bool.false_ne_true
    split
    · exact nofun
    · exact nofun
    · rename_i failure _
      cases failure <;> exact nofun

/-- A YAML text that is not too large is refused for its anchors where the search finds one. -/
theorem load_anchors_iff {limits : Limits} {text : List Char} (yaml : isJson text = false)
    (fits : text.length ≤ limits.size) :
    load limits text = .error .anchors ↔ holdsAnchor text = true := by
  rw [← @readYaml_anchors_iff limits.depth]
  unfold load
  rw [if_neg (Int.not_lt.mpr fits), yaml, if_neg Bool.false_ne_true]
  cases readYaml limits.depth text with
  | ok v =>
    refine iff_of_false (fun failed => ?_) nofun
    rcases check_fault failed with same | same | same | same <;> exact nomatch same
  | error fault => simp

theorem words_content {tokens : List Yaml.Token} (free : ∀ token ∈ tokens, token.kind.isReference = false) :
    Yaml.words tokens = tokens.filter (·.kind.isContent) :=
  List.filter_congr fun token among => by rw [Yaml.Token.Kind.isWord, free token among, Bool.false_or]

/-- In a YAML text without anchors and aliases every ampersand stands in a scalar, a tag, a directive or a
comment; and the text is refused for anchors if and only if one of them, with something behind it that
could be a name, stands where a node could. -/
theorem load_refuses_content_iff {limits : Limits} {depth : Int} {text : List Char} {version : Yaml.Version}
    {root : Option Yaml.Node} (yaml : isJson text = false) (fits : text.length ≤ limits.size)
    (read : Yaml.Node.ofText depth text = .ok (version, root))
    (free : ∀ token ∈ (Yaml.TokenStream.ofText text).tokens, token.kind.isReference = false) :
    (∀ before rest, text = before ++ '&' :: rest →
        Yaml.Within text ((Yaml.TokenStream.ofText text).tokens.filter (·.kind.isContent)).reverse before) ∧
      (load limits text = .error .anchors ↔ ∃ before rest, text = before ++ '&' :: rest ∧
        StandsOpen before ∧ rest.head?.any isNameCharacter = true) := by
  have covered := Yaml.Node.ofText_covered read
  rw [words_content free] at covered
  refine ⟨fun _ _ split => covered.ampersand split, ?_⟩
  rw [load_anchors_iff yaml fits, holdsAnchor_iff]
  exact exists₂_congr fun before rest => and_congr_right fun _ => and_congr_left fun _ =>
    Opening.run_open_iff

/-- A document with an ampersand behind a comma in a quoted scalar, and more of them in a comment and in
the lines of a block. -/
def ampersandText : String :=
  "paths: \x7b\x7d # a, &b\ninfo:\n  title: \"Tom, &Jerry\"\n  description: |\n    &more\n"

theorem ampersandText_read : isJson ampersandText.toList = false ∧
    (ampersandText.toList.length : Int) ≤ ({} : Limits).size ∧
    (∃ version root, Yaml.Node.ofText 64 ampersandText.toList = .ok (version, root)) ∧
    ∀ token ∈ (Yaml.TokenStream.ofText ampersandText.toList).tokens, token.kind.isReference = false := by
  refine ⟨by decide +kernel, by decide +kernel, ?_, ?_⟩
  · have reads : (Yaml.Node.ofText 64 ampersandText.toList).toOption.isSome = true := by decide +kernel
    cases read : Yaml.Node.ofText 64 ampersandText.toList with
    | ok found => exact ⟨found.1, found.2, rfl⟩
    | error failure =>
      rw [read] at reads
      exact nomatch reads
  · have free : (Yaml.TokenStream.ofText ampersandText.toList).tokens.all (!·.kind.isReference) = true := by
      decide +kernel
    exact fun token among => Bool.not_eq_true' _ ▸ List.all_eq_true.mp free token among

theorem load_refuses_content_iff_ampersandText : isJson ampersandText.toList = false ∧
    (∀ token ∈ (Yaml.TokenStream.ofText ampersandText.toList).tokens, token.kind.isReference = false) ∧
    (∀ before rest, ampersandText.toList = before ++ '&' :: rest → Yaml.Within ampersandText.toList
      ((Yaml.TokenStream.ofText ampersandText.toList).tokens.filter (·.kind.isContent)).reverse before) ∧
    (load {} ampersandText.toList = .error .anchors ↔
      ∃ before rest, ampersandText.toList = before ++ '&' :: rest ∧ StandsOpen before ∧
        rest.head?.any isNameCharacter = true) := by
  obtain ⟨yaml, fits, ⟨_, _, read⟩, free⟩ := ampersandText_read
  exact ⟨yaml, free, load_refuses_content_iff yaml fits read free⟩

/-- The document is refused for its anchors, though it has none. -/
theorem load_refuses_ampersandText : isJson ampersandText.toList = false ∧
    (∃ version root, Yaml.Node.ofText 64 ampersandText.toList = .ok (version, root)) ∧
    (∀ token ∈ (Yaml.TokenStream.ofText ampersandText.toList).tokens, token.kind.isReference = false) ∧
    (Yaml.TokenStream.ofText ampersandText.toList).tokens.any
      (·.kind = .scalar .quoted "Tom, &Jerry".toList) = true ∧
    load {} ampersandText.toList = .error .anchors := by
  obtain ⟨yaml, fits, read, free⟩ := ampersandText_read
  exact ⟨yaml, read, free, by decide +kernel, (load_anchors_iff yaml fits).mpr (by decide +kernel)⟩

end PayloadCheck.Document
