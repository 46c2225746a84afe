/-
Requests and responses.
-/
import CaseGateway.Failure
import CaseGateway.Json.Printer
import CaseGateway.Text.Utf8

namespace CaseGateway.Http

/-- The method of a request. -/
inductive Method
  | get
  | head
  | post
  | put
  | delete
  | options
  /-- Any other method. -/
  | other
  deriving DecidableEq, Repr

/-- The method of a name. -/
def Method.ofName : String → Method
  | "GET" => .get
  | "HEAD" => .head
  | "POST" => .post
  | "PUT" => .put
  | "DELETE" => .delete
  | "OPTIONS" => .options
  | _ => .other

/-- A request, its target cut into a path and a query string. -/
structure Request where
  method : Method
  path : String
  queryString : String
  contentType : Option String
  body : Bytes

/-- A request to a target as it is sent: a path, a query string behind a question mark, and
possibly a fragment, which is not for the server. -/
def Request.ofTarget (method : Method) (target : String) (contentType : Option String)
    (body : Bytes) : Request :=
  let visible := target.toList.takeWhile (· != '#')
  { method
    path := String.ofList (visible.takeWhile (· != '?'))
    queryString := String.ofList ((visible.dropWhile (· != '?')).drop 1)
    contentType
    body }

/-- The body of a response. -/
inductive Body
  | empty
  | json (j : Json)
  | text (s : String)
  | bytes (bs : Bytes)

/-- The bytes of a body. -/
def Body.toBytes : Body → Bytes
  | .empty => []
  | .json j => Text.toUtf8 j.text
  | .text s => Text.toUtf8 s
  | .bytes bs => bs

/-- A response. -/
structure Response where
  status : Nat
  contentType : Option String
  body : Body

namespace Response

/-- A response that says nothing beyond its status. -/
def bare (status : Nat) : Response := ⟨status, none, .empty⟩

/-- What is said when there is nothing to say. -/
def noContent : Response := bare 204

/-- A document. -/
def json (status : Nat) (j : Json) : Response := ⟨status, some "application/json", .json j⟩

/-- A remark on the request itself. -/
def plain (status : Nat) (s : String) : Response :=
  ⟨status, some "text/plain; charset=utf-8", .text s⟩

/-- The report of an error. -/
def ofError (e : RestError) : Response :=
  json e.status (.object [("type", .string e.typeName), ("message", .string e.message)])

/-- Whether a text may stand in a header: no control characters but the tab. -/
def isHeaderText (s : String) : Bool :=
  (Text.toUtf8 s).all fun b => b == 0x09 || (0x20 ≤ b && b != 0x7F)

/-- Binary content under a content type. -/
def binary (contentType : String) (bs : Bytes) : Response :=
  if isHeaderText contentType then ⟨200, some contentType, .bytes bs⟩
  else plain 500 "failed to parse header value"

/-- The response without its body. -/
def headOnly (r : Response) : Response := { r with body := .empty }

end Response

end CaseGateway.Http
