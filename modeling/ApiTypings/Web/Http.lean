import ApiTypings.Web.Url

/-! Fetching a page. The network is a function from addresses to replies, so that a fetch is a
value; whether redirects are followed is the reader's choice. -/

namespace ApiTypings

/-- An answer of a server. -/
structure Response where
  status : Nat
  /-- Where the server says to look instead. -/
  location : Option String
  body : List UInt8
deriving Repr

inductive Reply where
  | response (r : Response)
  /-- No server answered. -/
  | unreachable (reason : String)
deriving Repr

/-- What is found at each address, in its requested form. -/
abbrev Web := String → Reply

/-- The answer for an address where nothing is. -/
def Response.notFound : Response := ⟨404, none, []⟩

/-- The phrase that belongs to a status. -/
def reasonPhrases : List (Nat × String) :=
  [(100, "Continue"), (101, "Switching Protocols"), (102, "Processing"), (103, "Early Hints"),
   (200, "OK"), (201, "Created"), (202, "Accepted"), (203, "Non-Authoritative Information"),
   (204, "No Content"), (205, "Reset Content"), (206, "Partial Content"), (207, "Multi-Status"),
   (208, "Already Reported"), (226, "IM Used"), (300, "Multiple Choices"),
   (301, "Moved Permanently"), (302, "Found"), (303, "See Other"), (304, "Not Modified"),
   (305, "Use Proxy"), (307, "Temporary Redirect"), (308, "Permanent Redirect"),
   (400, "Bad Request"), (401, "Unauthorized"), (402, "Payment Required"), (403, "Forbidden"),
   (404, "Not Found"), (405, "Method Not Allowed"), (406, "Not Acceptable"),
   (407, "Proxy Authentication Required"), (408, "Request Timeout"), (409, "Conflict"),
   (410, "Gone"), (411, "Length Required"), (412, "Precondition Failed"),
   (413, "Request Entity Too Large"), (414, "Request-URI Too Long"),
   (415, "Unsupported Media Type"), (416, "Requested Range Not Satisfiable"),
   (417, "Expectation Failed"), (418, "I'm a teapot"), (421, "Misdirected Request"),
   (422, "Unprocessable Entity"), (423, "Locked"), (424, "Failed Dependency"), (425, "Too Early"),
   (426, "Upgrade Required"), (428, "Precondition Required"), (429, "Too Many Requests"),
   (431, "Request Header Fields Too Large"), (451, "Unavailable For Legal Reasons"),
   (500, "Internal Server Error"), (501, "Not Implemented"), (502, "Bad Gateway"),
   (503, "Service Unavailable"), (504, "Gateway Timeout"), (505, "HTTP Version Not Supported"),
   (506, "Variant Also Negotiates"), (507, "Insufficient Storage"), (508, "Loop Detected"),
   (510, "Not Extended"), (511, "Network Authentication Required")]

namespace Response

def isSuccess (r : Response) : Bool := r.status / 100 == 2

/-- The statuses that send the reader elsewhere. -/
def redirectStatuses : List Nat := [301, 302, 303, 307, 308]

/-- Where the reader is sent, if the status is one of a redirect. -/
def redirect? (r : Response) : Option String :=
  if redirectStatuses.contains r.status then r.location else none

/-- The class of a status that is no success. -/
def className (r : Response) : String :=
  match r.status / 100 with
  | 1 => "Informational response"
  | 3 => "Redirect response"
  | 4 => "Client error"
  | 5 => "Server error"
  | _ => "Invalid status code"

/-- Where the statuses are explained. -/
def referenceHost : String := "developer.mozilla.org"

/-- What is reported of a response that is no success. -/
def failureText (r : Response) (url : String) : String :=
  let phrase := (reasonPhrases.lookup r.status).getD ""
  let code := toString r.status
  let redirected := match r.redirect? with
    | some location => "Redirect location: '" ++ location ++ "'\n"
    | none => ""
  r.className ++ " '" ++ code ++ " " ++ phrase ++ "' for url '" ++ url ++ "'\n" ++ redirected ++
    "For more information check: https://" ++ referenceHost ++
    "/en-US/docs/Web/HTTP/Status/" ++ code

end Response

namespace Web

def addressCause (f : Url.Fault) : Cause := ⟨.invalidAddress, f.message⟩

/-- Where a response sends the reader of a page. -/
def target (page : Url) (location : String) : Except Cause Url :=
  match Url.ofString location with
  | .error f => .error ⟨.badRedirect, "Invalid URL in location header: " ++ f.message ++ "."⟩
  | .ok target => (page.redirected target).mapError addressCause

/-- The response at an address, and the address it came from. `hops` bounds the requests. Where a
redirect leads has to be an address even if it is not followed. -/
def request (web : Web) (follow : Bool) : Nat → Url → Except Cause (Url × Response)
  | 0, _ => .error ⟨.tooManyRedirects, "Exceeded maximum allowed redirects."⟩
  | hops + 1, url =>
    match web url.text with
    | .unreachable reason => .error ⟨.connection, reason⟩
    | .response r =>
      match r.redirect? with
      | none => .ok (url, r)
      | some location =>
        match target url location with
        | .error cause => .error cause
        | .ok next => if follow then request web follow hops next else .ok (url, r)

/-- At most twenty redirects are followed. -/
def maxRequests : Nat := 21

/-- The body of the page at an address, as text. -/
def get (web : Web) (follow : Bool) (address : String) : Except Cause (List Char) := do
  let url ← (Url.ofString address).mapError addressCause
  let (last, r) ← request web follow maxRequests url.requested
  if r.isSuccess then return Utf8.decodeLossy r.body
  else throw ⟨.httpStatus, r.failureText last.text⟩

end Web

end ApiTypings
