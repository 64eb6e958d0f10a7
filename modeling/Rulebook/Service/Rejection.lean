import Rulebook.Failure
import Rulebook.Http.Message
import Rulebook.Journal
import Rulebook.Json.Printer

/-!
# Rejections

A request that cannot be served is answered with a reason. What fails inside
the service is not told to the outside, only to the journal.
-/

namespace Rulebook

/-- **Why a request is rejected.** -/
inductive Rejection where
  /-- The request asks for something that is not allowed. -/
  | validation (message : String)
  /-- The text is no rule. -/
  | malformed (message : String)
  /-- There is no rule of this id. -/
  | notFound (id : String)
  /-- The service itself failed. -/
  | internal (reason : String)
deriving DecidableEq

namespace Rejection

/-- The rejection that a failure leads to. -/
def ofError : RuleError → Rejection
  | .malformed message => .malformed message
  | .notFound id => .notFound id
  | other => .internal other.message

/-- The whole message. -/
def message : Rejection → String
  | .validation message => "参数验证失败: " ++ message
  | .malformed message => "规则格式错误: " ++ message
  | .notFound id => "规则不存在: " ++ id
  | .internal reason => "内部错误: " ++ reason

/-- The status of the response. -/
def status : Rejection → Nat
  | .validation _ | .malformed _ => 400
  | .notFound _ => 404
  | .internal _ => 500

/-- The code in the response. -/
def code : Rejection → String
  | .validation _ => "VALIDATION_ERROR"
  | .malformed _ => "MALFORMED_RULE"
  | .notFound _ => "RULE_NOT_FOUND"
  | .internal _ => "INTERNAL_ERROR"

/-- The message in the response. -/
def publicMessage : Rejection → String
  | .internal _ => "服务内部错误，请稍后重试"
  | other => other.message

/-- **The response to a rejected request.** -/
def response (r : Rejection) : Response :=
  .json r.status (Json.text (.object [("code", .string r.code), ("data", .null),
    ("message", .string r.publicMessage), ("success", .bool false)]))

/-- What the journal says about a rejection. -/
def journal : Rejection → Journal
  | .internal reason => [.event .error .failures "内部错误" [("error", .shown reason)]]
  | _ => []

end Rejection

end Rulebook
