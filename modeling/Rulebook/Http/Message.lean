import Rulebook.Text.Bytes

/-!
# Requests and responses

What the service is asked and what it answers. A header can be given more
than once; where one value is wanted, the first counts.

The value of a header is a row of bytes, and so is a body. A request can bring
any; what the service itself sends are texts, and not every text may be sent in
a header.
-/

namespace Rulebook

/-- **The value of a header**: bytes, which need not be a text. -/
structure HeaderValue where
  /-- The bytes. -/
  bytes : List UInt8
deriving DecidableEq

namespace HeaderValue

/-- A text as it is sent. -/
def ofText (text : String) : HeaderValue := ⟨bytesOf text.toList⟩

instance : Coe String HeaderValue := ⟨ofText⟩

/-- Whether a byte is a visible ASCII character, a space or a tab. -/
def isVisibleByte (b : UInt8) : Bool := (0x20 ≤ b && b ≤ 0x7e) || b == 0x09

/-- Whether a byte may stand in the value of a header: it is no control
character but the tab. -/
def isSendableByte (b : UInt8) : Bool := (0x20 ≤ b && b != 0x7f) || b == 0x09

/-- **The text of a value**, if it consists of visible ASCII characters, spaces
and tabs. -/
def text? (value : HeaderValue) : Option String :=
  if value.bytes.all isVisibleByte then
    some (String.ofList (value.bytes.map fun b => Char.ofNat b.toNat))
  else none

/-- **A text as the value of a header**, if it may be sent. -/
def ofText? (text : String) : Option HeaderValue :=
  let value := ofText text
  if value.bytes.all isSendableByte then some value else none

end HeaderValue

/-- Named values, in the order in which they are sent; names are written in
small letters. -/
abbrev Headers := List (String × HeaderValue)

/-- The first value of a header. -/
def Headers.first? (headers : Headers) (name : String) : Option HeaderValue :=
  (headers.find? fun h => h.1 == name).map Prod.snd

/-- More headers can be given by texts. -/
instance : HAppend Headers (List (String × String)) Headers where
  hAppend headers more := headers ++ more.map fun h => (h.1, HeaderValue.ofText h.2)

/-- **The body of a request**: bytes, which need not be a text. -/
structure Body where
  /-- The bytes. -/
  bytes : List UInt8
deriving DecidableEq

namespace Body

/-- A text as it is sent. -/
def ofText (text : String) : Body := ⟨bytesOf text.toList⟩

instance : Coe String Body := ⟨ofText⟩

/-- The most bytes of a body that is read. -/
def limit : Nat := 2097152

/-- Whether a body is not too long to be read. -/
def fits (body : Body) : Bool := body.bytes.length ≤ limit

end Body

/-- **A request.** -/
structure Request where
  /-- The method, in capital letters. -/
  method : String
  /-- The path, and behind a question mark the query. -/
  target : String
  /-- The headers. -/
  headers : Headers
  /-- The body. -/
  body : Body

/-- The path of a request, without a query. -/
def Request.path (request : Request) : List Char :=
  request.target.toList.takeWhile fun c => c != '?' && c != '#'

/-- **A response.** -/
structure Response where
  /-- The status. -/
  status : Nat
  /-- The headers, whose values are texts. -/
  headers : List (String × String)
  /-- The body. -/
  body : String

namespace Response

/-- A response without a body. -/
def bare (status : Nat) : Response := ⟨status, [], ""⟩

/-- A response with a plain text. -/
def plain (status : Nat) (body : String) : Response :=
  ⟨status, [("content-type", "text/plain; charset=utf-8")], body⟩

/-- A response with the text of a document. -/
def json (status : Nat) (body : String) : Response :=
  ⟨status, [("content-type", "application/json")], body⟩

/-- The response with one value for a header, in place of all others of that
name. -/
def put (response : Response) (name value : String) : Response :=
  { response with headers := response.headers.filter (fun h => h.1 != name) ++ [(name, value)] }

end Response

end Rulebook
