/-! Cutting a text at every place of one character. -/

namespace ApiTypings.Text

/-- Put a character in front of the first piece. -/
def consFirst (c : Char) : List (List Char) → List (List Char)
  | [] => [[c]]
  | piece :: rest => (c :: piece) :: rest

/-- The pieces between separators, one more than there are separators. Neighbouring separators have
an empty piece between them. -/
def split (separator : Char) : List Char → List (List Char)
  | [] => [[]]
  | c :: rest =>
    if c == separator then [] :: split separator rest else consFirst c (split separator rest)

end ApiTypings.Text
