namespace PayloadCheck.Spec

/-- Replaces each pair of characters by one, from left to right. -/
def replacePair (first second replacement : Char) : List Char → List Char
  | a :: b :: rest =>
    if a = first ∧ b = second then replacement :: replacePair first second replacement rest
    else a :: replacePair first second replacement (b :: rest)
  | rest => rest

/-- The name that an escaped one stands for: `~1` is a slash and `~0` a tilde. -/
def unescape (name : List Char) : List Char :=
  replacePair '~' '0' '~' (replacePair '~' '1' '/' name)

/-- A table of schemas: its address in references, and the names that lead to it in a document. -/
structure Table where
  address : List Char
  way : List String

/-- The tables of both generations of documents, the newer first. -/
def tables : List Table :=
  [⟨"#/components/schemas/".toList, ["components", "schemas"]⟩,
    ⟨"#/definitions/".toList, ["definitions"]⟩]

/-- The table that a reference points into, and the name of its entry. -/
def target? (ref : List Char) : Option (Table × String) :=
  tables.findSome? fun table =>
    if table.address.isPrefixOf ref then
      some (table, String.ofList (unescape (ref.drop table.address.length)))
    else none

/-- Whether a reference points into one of the tables. -/
def isLocal (ref : String) : Bool := (target? ref.toList).isSome

end PayloadCheck.Spec
