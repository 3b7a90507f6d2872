namespace PayloadCheck.Text

/-- A line and a column, both counted from one. Columns reckoned from an offset outside the text can
be zero or less. -/
structure Position where
  line : Int
  column : Int
deriving DecidableEq, Repr, Inhabited

/-- How many characters lie before an offset: a negative offset counts from the end, and no offset
reaches outside the text. -/
def cut (length : Nat) (offset : Int) : Nat :=
  if offset < 0 then (offset + length).toNat else min offset.toNat length

theorem cut_natCast {length offset : Nat} (within : offset ≤ length) : cut length offset = offset := by
  unfold cut
  split <;> omega

/-- The part of a text after its last line feed. -/
def lastLine (text : List Char) : List Char := (text.reverse.takeWhile (· ≠ '\n')).reverse

/-- The position of an offset: one line for each line feed before it, and a column counted from the
last of these. -/
def position (text : List Char) (offset : Int) : Position :=
  let before := text.take (cut text.length offset)
  { line := before.count '\n' + 1
    column := offset - before.length + (lastLine before).length + 1 }

end PayloadCheck.Text
