/-!
# Failures

What can go wrong with a rule, and the message that says so.
-/

namespace Rulebook

/-- **What can go wrong with a rule.** -/
inductive RuleError where
  /-- The text is no rule. -/
  | malformed (message : String)
  /-- There is no rule of this id. -/
  | notFound (id : String)
  /-- A document is no formula or no rule. -/
  | invalidDocument (message : String)
  /-- A document could not be read or written. -/
  | json (message : String)
deriving DecidableEq

/-- **The message about a failure.** -/
def RuleError.message : RuleError → String
  | .malformed message => "规则格式错误: " ++ message
  | .notFound id => "规则未找到: " ++ id
  | .invalidDocument message => "无效的 AST 文档: " ++ message
  | .json message => "JSON 序列化错误: " ++ message

end Rulebook
