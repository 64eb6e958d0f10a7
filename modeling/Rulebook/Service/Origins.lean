import Rulebook.Http.Message
import Rulebook.Journal
import Rulebook.Text.Blank

/-!
# Requests from other origins

A browser asks whether a page may use the service from another origin. The
setting is either a star, for every origin, or a row of origins between
commas; an item of the row that cannot be the value of a header is left out.
-/

namespace Rulebook

/-- **The origins that may use the service.** -/
inductive OriginPolicy where
  /-- Every origin. -/
  | any
  /-- The listed ones. -/
  | listed (origins : List String)
deriving DecidableEq

/-- The items of a setting that can be the value of a header, without the blanks
around them. -/
def originItems (setting : String) : List String :=
  ((setting.toList.splitOn ',').map fun item => String.ofList (trim item)).filter
    fun item => (HeaderValue.ofText? item).isSome

namespace OriginPolicy

/-- **The policy of a setting.** A star among listed origins is not
accepted. -/
def ofSetting? (setting : String) : Option OriginPolicy :=
  if trim setting.toList = ['*'] then some .any
  else
    let origins := originItems setting
    if origins.contains "*" then none else some (.listed origins)

/-- What the journal says about a setting. -/
def journal (setting : String) : Journal :=
  if trim setting.toList = ['*'] then
    [.event .info .service "CORS allowed_origins: * (all origins)" []]
  else [.event .info .service ("CORS allowed_origins: " ++ setting) []]

/-- **The origin that a response allows**, given the origin of the request: of
listed origins it has to be one, byte for byte. -/
def allowed? (policy : OriginPolicy) (origin : Option HeaderValue) : Option String :=
  match policy with
  | .any => some "*"
  | .listed origins => origin.bind fun value => origins.find? fun item => .ofText item == value

/-- The headers that a response depends on. -/
def varyValue : String := "origin, access-control-request-method, access-control-request-headers"

/-- A response with what the policy says. -/
def mark (policy : OriginPolicy) (request : Request) (response : Response) : Response :=
  let response := response.put "vary" varyValue
  match policy.allowed? (request.headers.first? "origin") with
  | some origin => response.put "access-control-allow-origin" origin
  | none => response

/-- The response to the question what is allowed. -/
def preflight (policy : OriginPolicy) (request : Request) : Response :=
  policy.mark request
    (((Response.bare 200).put "access-control-allow-methods" "*").put
      "access-control-allow-headers" "*")

end OriginPolicy

end Rulebook
