import PayloadCheck.Proofs.Document.Load
import PayloadCheck.Proofs.Yaml.Tracking

namespace PayloadCheck.Document

/-- What the search knows behind a text that it begins with some knowledge. -/
def Opening.run (opening : Opening) (text : List Char) : Opening :=
  text.foldl (fun opening c => opening.after c) opening

/-- The search finds an anchor of a name behind some text. -/
def Sees (before name : List Char) : Prop :=
  Opening.run .open before = .open ∧ name.head?.any isNameCharacter = true

theorem holdsAnchorFrom_iff {opening : Opening} {text : List Char} :
    holdsAnchorFrom opening text = true ↔ ∃ before rest, text = before ++ '&' :: rest ∧
      opening.run before = .open ∧ rest.head?.any isNameCharacter = true := by
  induction text generalizing opening with
  | nil => simp [holdsAnchorFrom]
  | cons c text ih =>
    simp only [holdsAnchorFrom, Bool.or_eq_true, Bool.and_eq_true, decide_eq_true_eq, beq_iff_eq, ih]
    constructor
    · rintro (⟨⟨isOpen, rfl⟩, named⟩ | ⟨before, rest, rfl, isOpen, named⟩)
      · exact ⟨[], text, rfl, isOpen, named⟩
      · exact ⟨c :: before, rest, rfl, isOpen, named⟩
    · rintro ⟨before, rest, split, isOpen, named⟩
      cases before with
      | nil =>
        cases split
        exact .inl ⟨⟨isOpen, rfl⟩, named⟩
      | cons first before =>
        cases split
        exact .inr ⟨before, rest, rfl, isOpen, named⟩

/-- The search finds an anchor exactly where it sees one. -/
theorem holdsAnchor_iff {text : List Char} :
    holdsAnchor text = true ↔ ∃ before rest, text = before ++ '&' :: rest ∧ Sees before rest :=
  holdsAnchorFrom_iff

/-- An anchor of a name, behind some text, that the search passes over. -/
inductive Overlooked : (before name : List Char) → Prop
  | tag {front word blanks name : List Char} {last : Char} (marked : (word ++ [last]).head? = some '!')
      (solid : (word ++ [last]).all Yaml.isSolid = true)
      (shuts : opensNode last = false ∧ isIndicator last = false) (blank : blanks.all isSpacing = true) :
      Overlooked (front ++ word ++ last :: blanks) name
  | indicator {front name : List Char} {ch : Char} (indicates : isIndicator ch = true) :
      Overlooked (front ++ [ch]) name
  | lineBreak {front blanks name : List Char} {ch : Char} (breaks : Yaml.isBreak ch = true)
      (other : ch ≠ '\n') (blank : blanks.all isSpacing = true) :
      Overlooked (front ++ ch :: blanks) name
  | byteOrderMark {blanks name : List Char} (blank : blanks.all isSpacing = true) :
      Overlooked ('\uFEFF' :: blanks) name
  | blankName {before rest : List Char} {ch : Char} (blank : Text.isBlank ch = true) :
      Overlooked before (ch :: rest)

namespace Opening

theorem run_append (opening : Opening) (before rest : List Char) :
    opening.run (before ++ rest) = (opening.run before).run rest :=
  List.foldl_append

theorem run_cons (opening : Opening) (ch : Char) (rest : List Char) :
    opening.run (ch :: rest) = (opening.after ch).run rest := rfl

theorem after_spacing {ch : Char} (spacing : isSpacing ch = true) (opening : Opening) :
    opening.after ch = if opening = .closed then .closed else .open := by
  have facts : opensNode ch = false ∧ isIndicator ch = false := by
    simp only [isSpacing, Bool.or_eq_true, beq_iff_eq] at spacing
    rcases spacing with rfl | rfl <;> decide
  simp [after, facts.1, facts.2, spacing]

theorem after_opensNode {ch : Char} (opens : opensNode ch = true) (opening : Opening) :
    opening.after ch = .open := by
  simp [after, opens]

theorem after_isIndicator {ch : Char} (indicates : isIndicator ch = true) (opening : Opening) :
    opening.after ch = .afterSpace := by
  have shuts : opensNode ch = false := by
    simp only [isIndicator, Bool.or_eq_true, beq_iff_eq] at indicates
    rcases indicates with (rfl | rfl) | rfl <;> decide
  simp [after, indicates, shuts]

theorem after_other {ch : Char} (shuts : opensNode ch = false) (other : isIndicator ch = false)
    (solid : isSpacing ch = false) (opening : Opening) : opening.after ch = .closed := by
  simp [after, shuts, other, solid]

/-- A break other than a line feed opens nothing. -/
theorem after_lineBreak {ch : Char} (breaks : Yaml.isBreak ch = true) (other : ch ≠ '\n')
    (opening : Opening) : opening.after ch = .closed := by
  simp only [Yaml.isBreak, Bool.or_eq_true, beq_iff_eq] at breaks
  refine after_other ?_ ?_ ?_ opening
  all_goals rcases breaks with (((rfl | rfl) | rfl) | rfl) | rfl
  all_goals first
    | exact absurd rfl other
    | decide

section Blanks

variable {blanks : List Char} (blank : blanks.all isSpacing = true)
include blank

theorem run_closed : run .closed blanks = .closed := by
  induction blanks with
  | nil => rfl
  | cons ch blanks ih =>
    rw [List.all_cons, Bool.and_eq_true] at blank
    rw [run_cons, after_spacing blank.1, if_pos rfl, ih blank.2]

theorem run_open : run .open blanks = .open := by
  induction blanks with
  | nil => rfl
  | cons ch blanks ih =>
    rw [List.all_cons, Bool.and_eq_true] at blank
    rw [run_cons, after_spacing blank.1, if_neg (by decide), ih blank.2]

theorem run_afterSpace (some : blanks ≠ []) : run .afterSpace blanks = .open := by
  cases blanks with
  | nil => exact absurd rfl some
  | cons ch blanks =>
    rw [List.all_cons, Bool.and_eq_true] at blank
    rw [run_cons, after_spacing blank.1, if_neg (by decide), run_open blank.2]

end Blanks

end Opening

theorem Overlooked.not_sees {before name : List Char} (overlooked : Overlooked before name) :
    ¬ Sees before name := by
  rintro ⟨isOpen, named⟩
  cases overlooked with
  | @tag front word blanks _ last _ solid shuts blank =>
    have whole : isSpacing last = false := by
      rw [List.all_append, Bool.and_eq_true] at solid
      simp_all [Yaml.isSolid, isSpacing, Yaml.isBlank]
    rw [Opening.run_append, Opening.run_cons, Opening.after_other shuts.1 shuts.2 whole,
      Opening.run_closed blank] at isOpen
    cases isOpen
  | indicator indicates =>
    rw [Opening.run_append, Opening.run_cons, Opening.after_isIndicator indicates] at isOpen
    cases isOpen
  | lineBreak breaks other blank =>
    rw [Opening.run_append, Opening.run_cons, Opening.after_lineBreak breaks other,
      Opening.run_closed blank] at isOpen
    cases isOpen
  | byteOrderMark blank =>
    rw [Opening.run_cons, Opening.after_other rfl rfl rfl, Opening.run_closed blank] at isOpen
    cases isOpen
  | blankName blank => simp [isNameCharacter, blank] at named

/-- Behind what opens a node, or indicates one, and blanks the search looks for an anchor. -/
theorem run_behind {front blanks name : List Char} {ch : Char}
    (opens : opensNode ch = true ∨ isIndicator ch = true) (blank : blanks.all isSpacing = true)
    (found : ¬ Overlooked (front ++ ch :: blanks) name) :
    Opening.run .open (front ++ ch :: blanks) = .open := by
  rw [Opening.run_append, Opening.run_cons]
  obtain opens | indicates := opens
  · rw [Opening.after_opensNode opens, Opening.run_open blank]
  · rw [Opening.after_isIndicator indicates]
    refine Opening.run_afterSpace blank ?_
    rintro rfl
    exact found (.indicator indicates)

/-- Where a node may begin, the search looks for an anchor unless it overlooks it. -/
theorem run_gate {before name : List Char} (gate : Yaml.Gate before)
    (found : ¬ Overlooked before name) : Opening.run .open before = .open := by
  obtain ⟨stem, blanks, rfl, opens, blank⟩ := gate
  cases opens with
  | start => exact Opening.run_open blank
  | byteOrderMark => exact absurd (.byteOrderMark blank) found
  | @lineBreak front ch breaks =>
    rw [List.append_assoc, List.singleton_append] at found ⊢
    by_cases feed : ch = '\n'
    · exact run_behind (.inl (by rw [feed]; rfl)) blank found
    · exact absurd (.lineBreak breaks feed blank) found
  | @indicator front ch opens =>
    rw [List.append_assoc, List.singleton_append] at found ⊢
    refine run_behind ?_ blank found
    fin_cases opens <;> decide
  | @tag front word solid =>
    have spelled : ('!' :: word).dropLast ++ [('!' :: word).getLast (by simp)] = '!' :: word :=
      List.dropLast_append_getLast _
    generalize ('!' :: word).dropLast = start, ('!' :: word).getLast (by simp) = last at spelled
    have split : front ++ '!' :: word ++ blanks = front ++ start ++ last :: blanks := by
      rw [← spelled]
      simp
    rw [split] at found ⊢
    by_cases opens : opensNode last = true ∨ isIndicator last = true
    · exact run_behind opens blank found
    · rw [not_or, Bool.not_eq_true, Bool.not_eq_true] at opens
      have marked : (start ++ [last]).head? = some '!' := by rw [spelled]; rfl
      have whole : (start ++ [last]).all Yaml.isSolid = true := by
        rw [spelled, List.all_cons, solid]
        rfl
      exact absurd (.tag marked whole opens blank) found

theorem isSeparator_of_allowed {ch : Char} (allowed : Yaml.isAnchorCharacter ch = true) :
    isSeparator ch = false := by
  simp only [Yaml.isAnchorCharacter, Bool.and_eq_true, Bool.not_eq_true', Bool.or_eq_false_iff] at allowed
  simp only [isSeparator, Bool.or_eq_false_iff]
  tauto

/-- Where a node may begin, an anchor is found unless it is overlooked. -/
theorem sees_iff {before name rest : List Char} (gate : Yaml.Gate before) (some : name ≠ [])
    (allowed : name.all Yaml.isAnchorCharacter = true) :
    Sees before (name ++ rest) ↔ ¬ Overlooked before (name ++ rest) := by
  refine ⟨fun sees overlooked => overlooked.not_sees sees, fun found => ⟨run_gate gate found, ?_⟩⟩
  cases name with
  | nil => exact absurd rfl some
  | cons ch others =>
    rw [List.all_cons, Bool.and_eq_true] at allowed
    have visible : Text.isBlank ch = false := by
      cases blank : Text.isBlank ch with
      | false => rfl
      | true => exact absurd (.blankName blank) found
    simp [isNameCharacter, visible, isSeparator_of_allowed allowed.1]

/-- A text with an anchor that the search sees is not loaded. -/
theorem load_refuses {limits : Limits} {before rest : List Char}
    (yaml : isJson (before ++ '&' :: rest) = false) (sees : Sees before rest) :
    ∃ fault, load limits (before ++ '&' :: rest) = .error fault ∧ fault.isUnsafe = true := by
  have holds := holdsAnchor_iff.mpr ⟨before, rest, rfl, sees⟩
  unfold load
  split
  · exact ⟨_, rfl, rfl⟩
  · refine ⟨.anchors, ?_, rfl⟩
    rw [if_neg (by simp [yaml]), readYaml, if_pos holds]

/-- Every anchor of a text that is read as YAML stands where it says, and is found unless it is overlooked. -/
theorem anchor_seen {depth : Int} {text name : List Char} {version : Yaml.Version}
    {root : Option Yaml.Node} {token : Yaml.Token}
    (read : Yaml.Node.ofText depth text = .ok (version, root))
    (among : token ∈ (Yaml.TokenStream.ofText text).tokens) (anchor : token.kind = .anchor name) :
    ∃ before after, text = before ++ '&' :: (name ++ after) ∧
      token.start = ((Yaml.Cursor.ofText text).skip before.length).mark ∧
      (Sees before (name ++ after) ↔ ¬ Overlooked before (name ++ after)) := by
  obtain ⟨before, after, split, placed, gate, some, allowed⟩ :=
    Yaml.Node.ofText_gated read token among name anchor
  exact ⟨before, after, split, placed, sees_iff gate some allowed⟩

/-- Every anchor of a text that is read as YAML stands where it says, and keeps the text from being loaded
unless it is one of those that the search overlooks. -/
theorem load_refuses_unless_overlooked (limits : Limits) {depth : Int} {text name : List Char}
    {version : Yaml.Version} {root : Option Yaml.Node} {token : Yaml.Token} (yaml : isJson text = false)
    (read : Yaml.Node.ofText depth text = .ok (version, root))
    (among : token ∈ (Yaml.TokenStream.ofText text).tokens) (anchor : token.kind = .anchor name) :
    ∃ before after, text = before ++ '&' :: (name ++ after) ∧
      token.start = ((Yaml.Cursor.ofText text).skip before.length).mark ∧
      (Sees before (name ++ after) ↔ ¬ Overlooked before (name ++ after)) ∧
      (¬ Overlooked before (name ++ after) →
        ∃ fault, load limits text = .error fault ∧ fault.isUnsafe = true) := by
  obtain ⟨before, after, rfl, placed, seen⟩ := anchor_seen read among anchor
  exact ⟨before, after, rfl, placed, seen, fun found => load_refuses yaml (seen.mpr found)⟩

/-- A document with an anchor behind a tag, and an alias of it. -/
def taggedText : String := "paths: \x7b\x7d\na: !!str &x lol\nb: *x\n"

theorem load_refuses_unless_overlooked_taggedText :
    ∃ token ∈ (Yaml.TokenStream.ofText taggedText.toList).tokens, token.kind = .anchor ['x'] ∧
      ∃ before after, taggedText.toList = before ++ '&' :: (['x'] ++ after) ∧
        token.start = ((Yaml.Cursor.ofText taggedText.toList).skip before.length).mark ∧
        (Sees before (['x'] ++ after) ↔ ¬ Overlooked before (['x'] ++ after)) ∧
        (¬ Overlooked before (['x'] ++ after) →
          ∃ fault, load {} taggedText.toList = .error fault ∧ fault.isUnsafe = true) := by
  have holds : (Yaml.TokenStream.ofText taggedText.toList).tokens.any (·.kind = .anchor ['x']) = true := by
    decide +kernel
  obtain ⟨token, among, anchor⟩ := List.any_eq_true.mp holds
  rw [decide_eq_true_eq] at anchor
  have reads : (Yaml.Node.ofText 64 taggedText.toList).toOption.isSome = true := by decide +kernel
  cases read : Yaml.Node.ofText 64 taggedText.toList with
  | error failure =>
    rw [read] at reads
    cases reads
  | ok found =>
    exact ⟨token, among, anchor,
      load_refuses_unless_overlooked {} (by decide +kernel) read among anchor⟩

/-- The document is loaded, with the alias as the text that the anchor stands before. -/
theorem load_expands_taggedText :
    isJson taggedText.toList = false ∧
      (Yaml.TokenStream.ofText taggedText.toList).tokens.any (·.kind = .anchor ['x']) = true ∧
      ∃ document, load {} taggedText.toList = .ok document ∧
        (document.get? "b").bind (·.str?) = some "lol" := by
  refine ⟨by decide +kernel, by decide +kernel, ?_⟩
  have loaded : (load {} taggedText.toList).toOption.bind (fun document =>
      (document.get? "b").bind (·.str?)) = some "lol" := by decide +kernel
  cases result : load {} taggedText.toList with
  | error fault =>
    rw [result] at loaded
    cases loaded
  | ok document =>
    rw [result] at loaded
    exact ⟨document, rfl, loaded⟩

end PayloadCheck.Document
