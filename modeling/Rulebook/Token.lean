import Rulebook.Operator

/-!
# Tokens

The pieces a rule text is made of: parentheses, the two connectives,
comparators, field names, quoted texts and whole numbers. A row of tokens
can also be given directly, so a token may hold what no text spells: a
quoted text without its quotes, or a number that is not whole.
-/

namespace Rulebook

/-- **A token** of a rule text. -/
inductive Token where
  /-- An opening parenthesis. -/
  | leftParen
  /-- A closing parenthesis. -/
  | rightParen
  /-- The connective `AND`. -/
  | and
  /-- The connective `OR`. -/
  | or
  /-- A comparator. -/
  | comparator (c : Comparator)
  /-- The name of a field. -/
  | identifier (name : String)
  /-- A text, with its quotes. -/
  | quotedText (raw : String)
  /-- A number. -/
  | number (x : Binary64)
deriving DecidableEq

namespace Token

/-- **A token as messages name it.** -/
def description : Token → String
  | .leftParen => "'('"
  | .rightParen => "')'"
  | .and => "AND"
  | .or => "OR"
  | .comparator c => "操作符 " ++ c.text
  | .identifier name => "标识符 " ++ name
  | .quotedText raw => "字符串 " ++ raw
  | .number x => "数字 " ++ x.text

/-- The connective a token stands for. -/
def connective? : Token → Option Connective
  | .and => some .and
  | .or => some .or
  | _ => none

end Token

end Rulebook
