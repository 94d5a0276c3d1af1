/-! Line ends. A file may end its lines in any of three ways; what is read from one has line feeds
only. -/

namespace ApiTypings.Text

/-- A carriage return, alone or with a line feed behind it, becomes one line feed. -/
def unifyNewlines : List Char → List Char
  | [] => []
  | '\r' :: '\n' :: rest => '\n' :: unifyNewlines rest
  | '\r' :: rest => '\n' :: unifyNewlines rest
  | c :: rest => c :: unifyNewlines rest

end ApiTypings.Text
