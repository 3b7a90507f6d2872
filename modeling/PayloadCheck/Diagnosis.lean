import PayloadCheck.InputError
import PayloadCheck.Text.Position

namespace PayloadCheck

/-- A place in a text: its offset, counted from zero, with the line and column of it. -/
structure Place where
  offset : Int
  line : Int
  column : Int
deriving DecidableEq, Repr

inductive Diagnosis
  | valid
  | invalid (message : String) (place : Option Place)
deriving DecidableEq, Repr

/-- The fields a diagnosis is given by. The verdict may be absent, or given as no boolean. -/
structure DiagnosisFields where
  verdict : Option (Option Bool)
  message : Option String
  offset : Option Int
  line : Option Int
  column : Option Int
deriving Repr

namespace Diagnosis

def isValid : Diagnosis → Bool
  | .valid => true
  | .invalid _ _ => false

def message? : Diagnosis → Option String
  | .valid => none
  | .invalid message _ => some message

def place? : Diagnosis → Option Place
  | .valid => none
  | .invalid _ place => place

def offset? (d : Diagnosis) : Option Int := d.place?.map (·.offset)

/-- The diagnosis with the given fields, if they fit together. -/
def ofFields (fields : DiagnosisFields) : Except (List InputError) Diagnosis :=
  let place := (fields.offset, fields.line, fields.column)
  match fields.verdict with
  | none => .error [⟨[.field "valid"], .missing⟩]
  | some none => .error [⟨[.field "valid"], .notBoolean⟩]
  | some (some true) =>
    match fields.message, place with
    | none, (none, none, none) => .ok .valid
    | _, _ => .error [⟨[], .validWithDetails⟩]
  | some (some false) =>
    match fields.message, place with
    | none, _ => .error [⟨[], .invalidWithoutMessage⟩]
    | some message, (none, none, none) => .ok (.invalid message none)
    | some message, (some offset, some line, some column) =>
      .ok (.invalid message (some ⟨offset, line, column⟩))
    | some _, _ => .error [⟨[], .partialPosition⟩]

/-- The diagnosis of an error at an offset. An offset outside the text is not reported. -/
def failure (text : List Char) (message : String) : Option Int → Diagnosis
  | none => .invalid message none
  | some offset =>
    if offset < 0 || (text.length : Int) < offset then .invalid message none
    else
      let position := Text.position text offset
      .invalid message (some ⟨offset, position.line, position.column⟩)

end Diagnosis

end PayloadCheck
