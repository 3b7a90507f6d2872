namespace PayloadCheck.Text

/-- What stands for a surrogate outside a pair, which is no character: each has a private character of
its own, at the end of the code space, and no text is taken to hold one of those characters itself. -/
def unpaired (unit : Nat) : Char := Char.ofNat (0x10F800 + (unit - 0xD800))

/-- The character with a number, or what stands for it where the number is that of a surrogate. -/
def ofCode (code : Nat) : Char :=
  if 0xD800 ≤ code && code ≤ 0xDFFF then unpaired code else Char.ofNat code

def isUnpaired (c : Char) : Bool := 0x10F800 ≤ c.toNat

/-- The number of what a character stands for: of the surrogate if it stands for one, else its own. -/
def unit (c : Char) : Nat := if isUnpaired c then c.toNat - 0x10F800 + 0xD800 else c.toNat

/-- Whether a text consists of characters alone. -/
def isWhole (s : String) : Bool := !s.toList.any isUnpaired

end PayloadCheck.Text
