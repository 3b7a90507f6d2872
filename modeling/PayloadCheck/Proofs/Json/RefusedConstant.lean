import PayloadCheck.Proofs.Json.BareLetter
import PayloadCheck.Proofs.Json.Stopping

namespace PayloadCheck.Json

theorem pieces_malformed {opening text : List Char} {refusal : Refusal}
    (refused : pieces opening text = .error refusal) : ∃ fault rest, refusal = .malformed fault rest := by
  fun_induction pieces opening text with
  | case2 => cases refused
  | case4 => cases refused
  | case5 _ _ _ _ _ _ _ _ _ failed ih =>
    cases refused
    exact ih failed
  | case8 => cases refused
  | case9 _ _ _ _ _ _ failed ih =>
    cases refused
    exact ih failed
  | case12 => cases refused
  | case13 _ _ _ _ _ _ _ _ failed ih =>
    cases refused
    exact ih failed
  | _ =>
    cases refused
    exact ⟨_, _, rfl⟩

theorem stringBody_malformed {text : List Char} {refusal : Refusal}
    (refused : stringBody text = .error refusal) : ∃ fault rest, refusal = .malformed fault rest := by
  unfold stringBody at refused
  split at refused
  · cases refused
  · rename_i failed
    cases refused
    exact pieces_malformed failed

theorem stringBody_ne_constant {text rest : List Char} {name : Constant} :
    stringBody text ≠ .error (.constant name rest) := by
  intro refused
  obtain ⟨fault, behind, other⟩ := stringBody_malformed refused
  cases other

theorem MemberStuck.ne_constant {text rest : List Char} {name : Constant} :
    ¬ MemberStuck text (.constant name rest) := by
  intro stuck
  cases stuck with
  | name refused => exact stringBody_ne_constant refused

theorem Stuck.of_constant {text rest : List Char} {name : Constant}
    (stuck : Stuck text (.constant name rest)) : text = rest ∧ name.name.toList <+: rest := by
  cases stuck with
  | constant _ behind => exact ⟨rfl, List.prefix_append _ _⟩
  | string refused => exact absurd refused stringBody_ne_constant
  | atMember _ _ stuck => exact absurd stuck MemberStuck.ne_constant

/-- A refused constant stands where a value could stand, in a frame behind white space. -/
theorem decode_constant {d : Nat} {text rest : List Char} {name : Constant}
    (refused : decode ⟨d, false⟩ text = .error (.constant name rest)) :
    name.name.toList <+: rest ∧
      ∃ w before behind e, Space w ∧ Frame d e before behind ∧ text = w ++ before ++ rest := by
  rcases decode_stuck refused with other | ⟨w, _, space, rfl, e, before, behind, place, frame, rfl, stuck⟩ |
    ⟨_, _, _, _, _, other⟩
  · cases other
  · obtain ⟨rfl, named⟩ := stuck.of_constant
    exact ⟨named, w, before, behind, e, space, frame, (List.append_assoc _ _ _).symm⟩
  · cases other

theorem ItemsBefore.clear {d : Nat} {front : List Char} (earlier : ItemsBefore d front) : Clear front := by
  cases earlier with
  | none => exact clear_nil
  | some written _ space => exact written.clear.append (.cons (by decide) space.clear)

theorem MembersBefore.clear {d : Nat} {front : List Char} (earlier : MembersBefore d front) :
    Clear front := by
  cases earlier with
  | none => exact clear_nil
  | some written _ space => exact written.clear.append (.cons (by decide) space.clear)

theorem Frame.clear {d e : Nat} {before behind : List Char} (frame : Frame d e before behind) :
    Clear before := by
  induction frame with
  | here => exact clear_nil
  | item space earlier _ ih => exact .cons (by decide) (space.clear.append (earlier.clear.append ih))
  | member space earlier named spaceName spaceValue _ ih =>
    have value : Clear (':' :: _) := .cons (by decide) (spaceValue.clear.append ih)
    exact .cons (by decide)
      (space.clear.append (earlier.clear.append (named.clear.append (spaceName.clear.append value))))

theorem scanned_stopped (text : List Char) : text.foldl scanned none = none := by
  induction text with
  | nil => rfl
  | cons c text ih => exact ih

/-- A name does not occur across the place where it stands: only a minus sign could come before the bare
letter, and it is no letter itself. -/
theorem Constant.not_earlier {name : Constant} {c : Char} {more rest : List Char} (plain : c ≠ 'N' ∧ c ≠ 'I')
    (next : more.head? ≠ some 'I') (named : name.name.toList <+: rest) :
    ¬ name.name.toList <+: c :: (more ++ rest) := by
  obtain ⟨behind, rfl⟩ := named
  rintro ⟨tail, same⟩
  cases name with
  | nan => exact plain.1 (List.cons.inj same).1.symm
  | infinity => exact plain.2 (List.cons.inj same).1.symm
  | negativeInfinity =>
    have second := congrArg List.head? (List.cons.inj same).2
    cases more with
    | nil => exact absurd (Option.some.inj second) (by decide)
    | cons d more => exact next second.symm

theorem bareTokenFrom?_of_closed {name : Constant} {before rest : List Char} {q : Quoting}
    (closed : before.foldl scanned (some q) = some .outside) (named : name.name.toList <+: rest) :
    bareTokenFrom? name.name.toList q (before ++ rest) = some before.length := by
  induction before generalizing q with
  | nil =>
    cases closed
    obtain ⟨behind, rfl⟩ := named
    cases name <;> rfl
  | cons c more ih =>
    rw [List.foldl_cons] at closed
    cases q with
    | escaped => simp only [List.cons_append, bareTokenFrom?, ih closed, Option.map_some, List.length_cons]
    | inside => simp only [List.cons_append, bareTokenFrom?, ih closed, Option.map_some, List.length_cons]
    | outside =>
      rw [scanned] at closed
      by_cases quote : c = '"'
      · rw [if_pos quote] at closed
        simp only [List.cons_append, bareTokenFrom?, quote, if_true, ih closed, Option.map_some,
          List.length_cons]
      · rw [if_neg quote] at closed
        by_cases letter : c = 'N' ∨ c = 'I'
        · rw [if_pos letter, scanned_stopped] at closed
          cases closed
        · rw [if_neg letter] at closed
          have next : more.head? ≠ some 'I' := by
            intro first
            obtain ⟨others, rfl⟩ := List.head?_eq_some_iff.mp first
            rw [List.foldl_cons, show scanned (some .outside) 'I' = none from rfl, scanned_stopped] at closed
            cases closed
          have absent : name.name.toList.isPrefixOf (c :: (more ++ rest)) = false := by
            rw [Bool.eq_false_iff, ne_eq, List.isPrefixOf_iff_prefix]
            exact Constant.not_earlier (not_or.mp letter) next named
          simp only [List.cons_append, bareTokenFrom?, quote, if_false, absent, Bool.false_eq_true,
            ih closed, Option.map_some, List.length_cons]

theorem bareToken?_of_clear {name : Constant} {before rest : List Char} (clear : Clear before)
    (named : name.name.toList <+: rest) :
    bareToken? (before ++ rest) name.name.toList = some before.length :=
  bareTokenFrom?_of_closed clear named

/-- A text does not end in a minus sign. -/
def NoMinus (text : List Char) : Prop := text.getLast? ≠ some '-'

theorem noMinus_nil : NoMinus [] := nofun

theorem NoMinus.behind {last : List Char} (ends : NoMinus last) (nonempty : last ≠ []) (text : List Char) :
    NoMinus (text ++ last) := by
  rwa [NoMinus, List.getLast?_append_of_ne_nil text nonempty]

theorem NoMinus.append {text last : List Char} (before : NoMinus text) (ends : NoMinus last) :
    NoMinus (text ++ last) := by
  by_cases empty : last = []
  · rwa [empty, List.append_nil]
  · exact ends.behind empty text

theorem NoMinus.cons {c : Char} {text : List Char} (ends : NoMinus text) (other : c ≠ '-') :
    NoMinus (c :: text) := by
  have first : NoMinus [c] := by simpa [NoMinus] using other
  exact first.append ends

theorem Space.noMinus {w : List Char} (space : Space w) : NoMinus w := by
  intro last
  rcases space '-' (List.mem_of_getLast? last) with other | other | other | other <;>
    exact absurd other (by decide)

theorem ItemsBefore.noMinus {d : Nat} {front : List Char} (earlier : ItemsBefore d front) :
    NoMinus front := by
  cases earlier with
  | none => exact noMinus_nil
  | some _ _ space => exact (space.noMinus.cons (by decide)).behind (List.cons_ne_nil _ _) _

theorem MembersBefore.noMinus {d : Nat} {front : List Char} (earlier : MembersBefore d front) :
    NoMinus front := by
  cases earlier with
  | none => exact noMinus_nil
  | some _ _ space => exact (space.noMinus.cons (by decide)).behind (List.cons_ne_nil _ _) _

theorem Frame.noMinus {d e : Nat} {before behind : List Char} (frame : Frame d e before behind) :
    NoMinus before := by
  induction frame with
  | here => exact noMinus_nil
  | item space earlier _ ih =>
    exact (space.noMinus.append (earlier.noMinus.append ih)).cons (by decide)
  | @member d e name w front nameText u v before behind space earlier _ _ spaceValue _ ih =>
    have value : NoMinus (':' :: (v ++ before)) := (spaceValue.noMinus.append ih).cons (by decide)
    have named := (value.behind (List.cons_ne_nil _ _) u).behind (by simp) nameText
    exact (space.noMinus.append (earlier.noMinus.append named)).cons (by decide)

theorem Constant.visible {name : Constant} {before rest : List Char} (named : name.name.toList <+: rest) :
    Text.allBlank (before ++ rest) = false := by
  obtain ⟨behind, rfl⟩ := named
  cases name <;> simp [Text.allBlank, Constant.name, show Text.isBlank 'N' = false from rfl,
    show Text.isBlank 'I' = false from rfl, show Text.isBlank '-' = false from rfl]

theorem diagnosis_constant {before rest : List Char} {name : Constant} (clear : Clear before)
    (named : name.name.toList <+: rest) :
    (Refusal.constant name rest).diagnosis (before ++ rest) =
      .invalid ("Unexpected token '" ++ name.name ++ "': not a valid JSON value")
        (some ⟨before.length, (Text.position (before ++ rest) before.length).line,
          (Text.position (before ++ rest) before.length).column⟩) := by
  have found : (Refusal.constant name rest).offset? (before ++ rest) = some (before.length : Int) := by
    rw [Refusal.offset?, bareToken?_of_clear clear named]
    rfl
  have inside : ¬ ((before.length : Int) < 0 || ((before ++ rest).length : Int) < before.length) = true := by
    simp
  rw [Refusal.diagnosis, found, Diagnosis.failure, if_neg inside]
  rfl

/-- Where reading stops at the name of a number that is not finite, the diagnosis names the place of that
very name, which stands in no string and has no minus sign before it. Any value that stood there instead
could be completed to a JSON text; a value that is no container, to one that is read. -/
theorem constant_located {text rest : List Char} {name : Constant}
    (refused : decode ⟨nestingLimit, false⟩ text = .error (.constant name rest)) :
    ∃ before behind, text = before ++ rest ∧ name.name.toList <+: rest ∧ Clear before ∧ NoMinus before ∧
      parse text =
        (.invalid ("Unexpected token '" ++ name.name ++ "': not a valid JSON value")
          (some ⟨before.length, (Text.position text before.length).line,
            (Text.position text before.length).column⟩), .null) ∧
      ∀ t value, TreeText t value →
        (∃ u, PaddedText u (before ++ (value ++ behind))) ∧
        (t.Within 0 → (parse (before ++ (value ++ behind))).1 = .valid) := by
  obtain ⟨named, w, front, behind, e, space, frame, rfl⟩ := decode_constant refused
  have clear := space.clear.append frame.clear
  have noMinus := space.noMinus.append frame.noMinus
  refine ⟨w ++ front, behind, rfl, named, clear, noMinus, ?_, fun t value written => ?_⟩
  · simp only [parse, Constant.visible named, Bool.false_eq_true, if_false, refused,
      diagnosis_constant clear named]
  obtain ⟨u, whole, within⟩ := frame.fill written
  have padded : PaddedText u (w ++ front ++ (value ++ behind)) := by
    rw [List.append_assoc]
    exact whole.padded.after_space space
  refine ⟨⟨u, padded⟩, fun flat => ?_⟩
  obtain ⟨v, denotes⟩ := u.denotes
  rw [parse_of_tree padded (within ⟨Nat.le_trans flat.depth (Nat.zero_le e), flat.integers⟩) denotes]

/-- Names in a string, with escaped quotes about one of them, and the minus sign of a number before the
constant that is refused. -/
def quotedNames : List Char := "[\"\\\"NaN\\\" -Infinity\", -1, -Infinity]".toList

theorem constant_located_quotedNames :
    decode ⟨nestingLimit, false⟩ quotedNames =
        .error (.constant .negativeInfinity "-Infinity]".toList) ∧
      (parse quotedNames).1 =
        .invalid "Unexpected token '-Infinity': not a valid JSON value" (some ⟨26, 1, 27⟩) ∧
      TreeText .null ['n', 'u', 'l', 'l'] ∧ Tree.null.Within 0 ∧
      ∃ behind, (parse (quotedNames.take 26 ++ (['n', 'u', 'l', 'l'] ++ behind))).1 = .valid := by
  have refusal : (match decode ⟨nestingLimit, false⟩ quotedNames with
      | .error refusal => some refusal
      | .ok _ => none) = some (.constant .negativeInfinity "-Infinity]".toList) := by
    decide +kernel
  have refused : decode ⟨nestingLimit, false⟩ quotedNames =
      .error (.constant .negativeInfinity "-Infinity]".toList) := by
    split at refusal
    · rename_i decoded
      rw [decoded, Option.some.inj refusal]
    · cases refusal
  obtain ⟨before, behind, whole, _, _, _, reported, fills⟩ := constant_located refused
  have place : before.length = 26 := by
    have lengths := congrArg List.length whole
    rw [List.length_append] at lengths
    have all : quotedNames.length = 36 := by decide +kernel
    have rest : "-Infinity]".toList.length = 10 := by decide +kernel
    omega
  have position : Text.position quotedNames (26 : Nat) = ⟨1, 27⟩ := by decide +kernel
  have front : quotedNames.take 26 = before := by
    rw [whole, ← place, List.take_left]
  have flat : Tree.null.Within 0 := leaf_within rfl rfl
  refine ⟨refused, ?_, .null, flat, behind, ?_⟩
  · rw [reported, place, position]
    rfl
  · rw [front]
    exact (fills .null _ .null).2 flat

end PayloadCheck.Json
