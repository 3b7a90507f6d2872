namespace PayloadCheck.Text

/-- The white space of Unicode, and the four information separators U+001C to U+001F. -/
def isBlank (c : Char) : Bool :=
  let n := c.toNat
  (9 ≤ n && n ≤ 13) || (28 ≤ n && n ≤ 32) || n == 0x85 || n == 0xA0 || n == 0x1680 ||
    (0x2000 ≤ n && n ≤ 0x200A) || n == 0x2028 || n == 0x2029 || n == 0x202F || n == 0x205F ||
    n == 0x3000

/-- A text of blanks alone; the empty text is one. -/
def allBlank (text : List Char) : Bool := text.all isBlank

/-- The text without the characters of a class at its two ends. -/
def stripBy (belongs : Char → Bool) (text : List Char) : List Char :=
  ((text.dropWhile belongs).reverse.dropWhile belongs).reverse

/-- The text without the blanks at its two ends. -/
def strip (text : List Char) : List Char := stripBy isBlank text

/-- The white space of Unicode. -/
def isWhiteSpace (c : Char) : Bool := isBlank c && !(28 ≤ c.toNat && c.toNat ≤ 31)

end PayloadCheck.Text
