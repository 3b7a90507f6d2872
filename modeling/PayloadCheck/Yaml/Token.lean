import PayloadCheck.Yaml.Fault

namespace PayloadCheck.Yaml

/-- The version of the rules that a text is written by. -/
structure Version where
  major : Nat
  minor : Nat
deriving DecidableEq, Repr, Inhabited

namespace Version

/-- The version of a text that declares none. -/
def current : Version := ⟨1, 2⟩

def former : Version := ⟨1, 1⟩

def isNewer (v : Version) : Bool := 1 < v.major || (v.major == 1 && 1 < v.minor)

end Version

/-- How the text of a scalar is written. -/
inductive Style
  | plain
  | quoted
  | folded
  | literal
deriving DecidableEq, Repr

/-- A tag as written: a handle that is declared to stand for an address, and what follows it. -/
structure TagName where
  handle : Option (List Char)
  rest : List Char
deriving DecidableEq, Repr

inductive Directive
  | version (v : Version)
  | handle (name address : List Char)
  | other
deriving DecidableEq, Repr

inductive Token.Kind
  | comment
  | directive (d : Directive)
  | documentStart
  | documentEnd
  | streamEnd
  | blockSequence
  | blockMapping
  | blockEnd
  | openSquare
  | closeSquare
  | openCurly
  | closeCurly
  | comma
  | entry
  | key
  | value
  | alias (name : List Char)
  | anchor (name : List Char)
  | tag (name : TagName)
  | scalar (style : Style) (text : List Char)
deriving DecidableEq, Repr

structure Token where
  kind : Token.Kind
  start : Mark
  stop : Mark
deriving DecidableEq, Repr

/-- The tokens of a text, up to the first failure if there is one. -/
structure TokenStream where
  tokens : List Token
  failure : Option Failure
deriving DecidableEq, Repr

end PayloadCheck.Yaml
