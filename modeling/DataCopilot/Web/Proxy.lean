import DataCopilot.Library.Percent
import Mathlib.Data.List.DropRight

/-! The route that hands requests of the browser on to the platform API. -/
namespace DataCopilot.Web

/-- `headers` gives a header by its lower-case name. -/
structure ProxyRequest where
  method : String
  path : List String
  search : String
  headers : String → Option String
  body : List UInt8

structure Target where
  origin : String
  path : List (List Char)
  search : String := ""
deriving DecidableEq

structure UpstreamRequest where
  target : Target
  method : String
  headers : List (String × String)
  body : Option (List UInt8)

structure UpstreamResponse where
  status : Nat
  headers : String → Option String
  body : List UInt8

structure ProxyResponse where
  status : Nat
  headers : List (String × String)
  body : List UInt8

/-- The characters that `encodeURIComponent` keeps: letters, digits and the marks. -/
def uriKeep (c : Char) : Bool :=
  ('0' ≤ c && c ≤ '9') || ('A' ≤ c && c ≤ 'Z') || ('a' ≤ c && c ≤ 'z') ||
    [45, 95, 46, 33, 126, 42, 39, 40, 41].contains c.toNat

def encodeURIComponent (part : String) : List Char := Percent.encode uriKeep part.toList

/-! `new URL(input, base)` where the input is a path on the host of the base. -/
namespace URL

/-- The characters that stay as they are in a path. -/
def pathKeep (c : Char) : Bool :=
  0x21 ≤ c.toNat && c.toNat ≤ 0x7E && !([0x22, 0x23, 0x3C, 0x3E, 0x3F, 0x5E, 0x60, 0x7B, 0x7D].contains c.toNat)

def isSingleDot (segment : List Char) : Bool := [".", "%2e", "%2E"].contains (String.ofList segment)

def isDoubleDot (segment : List Char) : Bool :=
  ["..", ".%2e", ".%2E", "%2e.", "%2E.", "%2e%2e", "%2e%2E", "%2E%2e", "%2E%2E"].contains (String.ofList segment)

/-- A backslash is a slash in the URLs of the web. -/
def isSlash (c : Char) : Bool := c = '/' || c = Char.ofNat 92

def addSegment (last : Bool) (path : List (List Char)) (segment : List Char) : List (List Char) :=
  if isDoubleDot segment then path.dropLast ++ if last then [[]] else []
  else if isSingleDot segment then path ++ if last then [[]] else []
  else path ++ [Percent.encode pathKeep segment]

def addSegments (path : List (List Char)) : List (List Char) → List (List Char)
  | [] => path
  | [segment] => addSegment true path segment
  | segment :: rest => addSegments (addSegment false path segment) rest

/-- Control characters and blanks at the ends are dropped, tabs and line ends everywhere. -/
def clean (input : List Char) : List Char :=
  ((input.dropWhile fun c => c.toNat ≤ 32).rdropWhile fun c => c.toNat ≤ 32).filter fun c => ¬ [9, 10, 13].contains c.toNat

/-- `none`: the input does not start with a slash, or names a host of its own. -/
def resolve (base : String) (input : List Char) : Option Target :=
  match clean input with
  | '/' :: rest =>
    if (rest.head?.map isSlash).getD false then none
    else
      let path := rest.takeWhile fun c => ¬ [0x3F, 0x23].contains c.toNat
      some { origin := base, path := addSegments [] (path.splitOnP isSlash) }
  | _ => none

end URL

def forwardedHeaders : List String := ["authorization", "content-type", "idempotency-key", "last-event-id"]

/-- The headers of the list that have a value. -/
def keptHeaders (names : List String) (headers : String → Option String) : List (String × String) :=
  names.filterMap fun name =>
    match headers name with
    | some value => if value = "" then none else some (name, value)
    | none => none

/-- `Response.json(...)`, with the body as text. -/
def invalidPath : ProxyResponse where
  status := 400
  headers := [("content-type", "application/json")]
  body := Utf8.encode ("\x7b\"code\":\"INVALID_PROXY_PATH\",\"message\":\"Invalid API path.\"\x7d").toList

/-- `proxy` up to its `fetch`. `none` is a URL that is not one of the platform's: an exception or another host. -/
def proxy (platformBase : String) (request : ProxyRequest) : Except ProxyResponse (Option UpstreamRequest) :=
  if request.path = [] ∨ ∃ part ∈ request.path, part = "" ∨ part = "." ∨ part = ".." then .error invalidPath
  else
    .ok do
      let target ← URL.resolve platformBase
        ("/api/".toList ++ ['/'].intercalate (request.path.map encodeURIComponent))
      let hasBody := request.method ≠ "GET" ∧ request.method ≠ "HEAD"
      some {
        target := { target with search := request.search }
        method := request.method
        headers := keptHeaders forwardedHeaders request.headers
        body := if hasBody then some request.body else none }

def returnedHeaders : List String := ["content-type", "cache-control", "location"]

def relay (upstream : UpstreamResponse) : ProxyResponse where
  status := upstream.status
  headers := keptHeaders returnedHeaders upstream.headers ++ [("X-Content-Type-Options", "nosniff")]
  body := upstream.body

/-- The whole of `proxy`, for a `fetch` that answers. `none` is an exception: of `new URL`, or the `RangeError` of a
`Response` with another status. -/
def serve (platformBase : String) (fetch : UpstreamRequest → UpstreamResponse) (request : ProxyRequest) :
    Option ProxyResponse :=
  match proxy platformBase request with
  | .error refused => some refused
  | .ok none => none
  | .ok (some upstream) =>
    if 200 ≤ (fetch upstream).status ∧ (fetch upstream).status ≤ 599 then some (relay (fetch upstream)) else none

end DataCopilot.Web
