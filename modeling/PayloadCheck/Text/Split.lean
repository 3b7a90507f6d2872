namespace PayloadCheck.Text

/-- The parts of a text between the occurrences of a separator; there is one more of them. -/
def split (separator : Char) : List Char → List (List Char)
  | [] => [[]]
  | c :: rest =>
    if c = separator then [] :: split separator rest
    else
      match split separator rest with
      | [] => [[c]]
      | part :: parts => (c :: part) :: parts

end PayloadCheck.Text
