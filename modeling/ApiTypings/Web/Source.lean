import ApiTypings.Text.CodeRange
import ApiTypings.Web.HostAddress
import ApiTypings.Web.Url

/-! Which sources are web addresses. -/

namespace ApiTypings.Url

/-- Brackets come in pairs, and between them stands a numeric address. -/
def hasSoundBrackets (authority : List Char) : Bool :=
  if authority.contains '[' then
    authority.contains ']' &&
      HostAddress.isBracketed (((authority.dropWhile (· != '[')).drop 1).takeWhile (· != ']'))
  else !authority.contains ']'

/-- Characters that look like a mark of an address: their compatibility decomposition (Unicode 14.0)
holds a slash, a question mark, a number sign, an at sign or a colon. -/
def disguisedMarks : List Text.CodeRange :=
  [(0x2047, 0x2049), (0x2100, 0x2101), (0x2105, 0x2106), (0x2A74, 0x2A74), (0xFE13, 0xFE13),
   (0xFE16, 0xFE16), (0xFE55, 0xFE56), (0xFE5F, 0xFE5F), (0xFE6B, 0xFE6B), (0xFF03, 0xFF03),
   (0xFF0F, 0xFF0F), (0xFF1A, 0xFF1A), (0xFF1F, 0xFF20)]

/-- An authority in which no mark is disguised and brackets are in order. -/
def isSoundAuthority (authority : List Char) : Bool :=
  hasSoundBrackets authority && !authority.any (Text.inRanges disguisedMarks)

/-- A source with the scheme `http` or `https`, in any case. Leading blanks and controls do not
count, nor do tabs and line ends anywhere. -/
def isWebAddress (source : String) : Bool :=
  let cs := (source.toList.dropWhile fun c => c.toNat ≤ 0x20).filter fun c =>
    c != '\t' && c != '\r' && c != '\n'
  let (scheme, rest) := splitScheme cs
  (scheme.toLower == "http" || scheme.toLower == "https") &&
    isSoundAuthority ((splitAuthority rest).1.getD [])

end ApiTypings.Url
