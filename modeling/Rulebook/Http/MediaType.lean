import Rulebook.Http.Message
import Rulebook.Number.Decimal

/-!
# Media types

A body is read as JSON only if its media type says that it is: the type is
`application`, and the subtype is `json` or ends in `+json`. Parameters such
as a character set may follow and have to be well formed, but do not matter.
-/

namespace Rulebook

/-- The characters that names and plain values are made of. -/
def isTokenChar (c : Char) : Bool :=
  c.isAlphanum || ['!', '#', '$', '%', '&', '\'', '+', '-', '.', '^', '_', '\x60', '|', '~'].contains c

/-- The characters between quotes. -/
def isQuotableChar (c : Char) : Bool := ' ' ≤ c && c != '\x7f'

/-- Where the reader stands among the parameters of a media type. -/
inductive ParameterState where
  /-- Before a name. -/
  | lead
  /-- Inside a name. -/
  | name
  /-- Behind the equals sign. -/
  | assigned
  /-- Inside a plain value. -/
  | value
  /-- Behind the opening quote. -/
  | opened
  /-- Inside a quoted value. -/
  | quoted
  /-- Behind the closing quote. -/
  | closed

namespace ParameterState

/-- The state behind one more character, if the character may stand there. -/
def next? (c : Char) : ParameterState → Option ParameterState
  | .lead => if c = ' ' then some .lead else if isTokenChar c then some .name else none
  | .name => if isTokenChar c then some .name else if c = '=' then some .assigned else none
  | .assigned => if c = '"' then some .opened else if isTokenChar c then some .value else none
  | .value => if isTokenChar c then some .value else if c = ';' then some .lead else none
  | .opened => if isQuotableChar c then some .quoted else none
  | .quoted => if c = '"' then some .closed else if isQuotableChar c then some .quoted else none
  | .closed => if c = ';' then some .lead else if c = ' ' then some .closed else none

/-- Whether the parameters may end in a state. -/
def mayEnd : ParameterState → Bool
  | .lead | .assigned | .value | .closed => true
  | .name | .opened | .quoted => false

/-- Whether the rest of a text is well formed. -/
def accepts : ParameterState → List Char → Bool
  | state, [] => state.mayEnd
  | state, c :: rest =>
    match state.next? c with
    | some state => accepts state rest
    | none => false

end ParameterState

/-- **A media type**, in small letters. -/
structure MediaType where
  /-- The type. -/
  type : String
  /-- The subtype, without its suffix. -/
  subtype : String
  /-- What stands behind the last plus sign of the subtype. -/
  suffix : Option String
deriving DecidableEq

namespace MediaType

/-- A subtype cut at its last plus sign, unless it begins with that sign. -/
def cutSuffix (name : List Char) : List Char × Option (List Char) :=
  let suffix := (name.reverse.takeWhile (· ≠ '+')).reverse
  let subtype := name.take (name.length - suffix.length - 1)
  if subtype.isEmpty then (name, none) else (subtype, some suffix)

/-- **The media type of a text.** -/
def read? (text : List Char) : Option MediaType :=
  let type := text.takeWhile isTokenChar
  match text.drop type.length with
  | '/' :: rest =>
    let name := rest.takeWhile isTokenChar
    let (subtype, suffix) := cutSuffix name
    let lower (s : List Char) : String := String.ofList (lowerAscii s)
    let found : MediaType := ⟨lower type, lower subtype, suffix.map lower⟩
    if type.isEmpty then none
    else
      match rest.drop name.length with
      | [] => some found
      | ';' :: parameters =>
        if !name.isEmpty && ParameterState.lead.accepts parameters then some found else none
      | _ => none
  | _ => none

/-- Whether a media type is one of JSON. -/
def isJson (m : MediaType) : Bool :=
  m.type == "application" && (m.subtype == "json" || m.suffix == some "json")

end MediaType

/-- **Whether a request says that its body is JSON.** -/
def Request.isJson (request : Request) : Bool :=
  match (request.headers.first? "content-type").bind HeaderValue.text? with
  | none => false
  | some text => ((MediaType.read? text.toList).map MediaType.isJson).getD false

end Rulebook
