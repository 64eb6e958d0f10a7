import Rulebook.Formula
import Rulebook.Token.Lexer

/-!
# From tokens to a formula

A formula is a chain of terms between connectives. Both connectives have the
same precedence and chains grow to the left, so `a OR b AND c` is
`(a OR b) AND c`. A term is a condition or a formula in parentheses, and the
closing parenthesis is not insisted on: whatever token stands in its place
is taken for it, and it may be missing at the end.

Two limits keep formulas small enough to be kept as documents and read back:
at most `depthLimit` parentheses are open at once, and no formula has more
than `depthLimit` levels. Both also bound the recursion, so they are what
the functions below recurse on: `term` on the parentheses that may still be
opened, `chain` on the joints that may still follow.
-/

namespace Rulebook

/-- The most levels of a formula, and the most parentheses open at once. -/
def depthLimit : Nat := 50

/-- **Why a row of tokens is no formula.** -/
inductive Malformed where
  /-- A token is left over behind the formula. -/
  | leftOver (position : Nat) (token : Token)
  /-- The formula has too many levels. -/
  | tooDeep
  /-- Too many parentheses are open at once. -/
  | tooManyOpen
  /-- A term begins with a token that cannot begin one. -/
  | noTerm (position : Nat) (token : Token)
  /-- The row ends where a term should begin. -/
  | endsBeforeTerm
  /-- A field is followed by something that is no comparator. -/
  | noComparator (field : String) (token : Token)
  /-- The row ends behind a field. -/
  | endsBeforeComparator (field : String)
  /-- The number of a condition is not finite. -/
  | notFinite (field : String) (comparator : Comparator)
  /-- A comparator is followed by something that is no value. -/
  | noLiteral (field : String) (comparator : Comparator) (token : Token)
  /-- The row ends behind a comparator. -/
  | endsBeforeLiteral (field : String) (comparator : Comparator)
deriving DecidableEq

/-- **The message about a row of tokens that is no formula.** -/
def Malformed.message : Malformed → String
  | .leftOver position token => s!"位置 {position} 存在多余的 {token.description}"
  | .tooDeep => s!"规则嵌套过深，语法树深度不能超过 {depthLimit}"
  | .tooManyOpen => s!"括号嵌套不能超过 {depthLimit} 层"
  | .noTerm position token => s!"位置 {position} 期望条件或 '('，实际为 {token.description}"
  | .endsBeforeTerm => "规则意外结束，缺少条件"
  | .noComparator field token =>
    s!"字段 '{field}' 之后期望比较操作符，实际为 {token.description}"
  | .endsBeforeComparator field => s!"字段 '{field}' 之后缺少比较操作符"
  | .notFinite field comparator => s!"条件 '{field} {comparator.text}' 的数字超出可表示范围"
  | .noLiteral field comparator token =>
    s!"条件 '{field} {comparator.text}' 期望字符串或数字，实际为 {token.description}"
  | .endsBeforeLiteral field comparator => s!"条件 '{field} {comparator.text}' 缺少比较值"

/-- A place in a row of tokens. -/
structure Cursor where
  /-- The number of tokens before it. -/
  position : Nat
  /-- The tokens behind it. -/
  rest : List Token

/-- What has been read at a cursor: a formula, its depth, and the place behind
it. -/
structure Parsed where
  /-- The formula. -/
  formula : Formula
  /-- Its number of levels. -/
  depth : Nat
  /-- The place behind it. -/
  cursor : Cursor

/-- The text between the quotes of a token; a token that does not have both
is taken as it is. -/
def unquoted (raw : String) : String :=
  match raw.toList with
  | '\'' :: body =>
    match body.reverse with
    | '\'' :: text => String.ofList text.reverse
    | _ => raw
  | _ => raw

/-- The rest of a condition, behind its field. -/
def conditionAfter (field : String) (cursor : Cursor) : Except Malformed Parsed :=
  match cursor.rest with
  | .comparator comparator :: rest =>
    let found (literal : Value) (rest : List Token) : Parsed :=
      ⟨.condition ⟨field, comparator, literal⟩, 1, ⟨cursor.position + 2, rest⟩⟩
    match rest with
    | .quotedText raw :: rest => .ok (found (.text (unquoted raw)) rest)
    | .number x :: rest =>
      if x.isFinite then .ok (found (.number x) rest)
      else .error (.notFinite field comparator)
    | token :: _ => .error (.noLiteral field comparator token)
    | [] => .error (.endsBeforeLiteral field comparator)
  | token :: _ => .error (.noComparator field token)
  | [] => .error (.endsBeforeComparator field)

/-- The rest of a chain, behind its first terms: connective, term, connective,
term, and so on. Each joint adds a level at least, so `joints` bounds their
number. -/
def chain (term : Cursor → Except Malformed Parsed) :
    (joints : Nat) → Parsed → Except Malformed Parsed
  | joints, left =>
    match left.cursor.rest with
    | [] => .ok left
    | token :: rest =>
      match token.connective? with
      | none => .ok left
      | some op => do
        let right ← term ⟨left.cursor.position + 1, rest⟩
        let depth := max left.depth right.depth + 1
        if depthLimit < depth then .error .tooDeep
        else
          match joints with
          | 0 => .error .tooDeep
          | joints + 1 =>
            chain term joints ⟨.join op left.formula right.formula, depth, right.cursor⟩

/-- The place behind the token that stands for a closing parenthesis. -/
def Cursor.skipClosing (cursor : Cursor) : Cursor :=
  match cursor.rest with
  | [] => cursor
  | _ :: rest => ⟨cursor.position + 1, rest⟩

/-- **A term**: a condition, or a formula in parentheses, of which `budget`
may still be opened. -/
def term : (budget : Nat) → Cursor → Except Malformed Parsed
  | budget, cursor =>
    match cursor.rest with
    | .leftParen :: rest =>
      match budget with
      | 0 => .error .tooManyOpen
      | budget + 1 => do
        let first ← term budget ⟨cursor.position + 1, rest⟩
        let inner ← chain (term budget) depthLimit first
        return { inner with cursor := inner.cursor.skipClosing }
    | .identifier field :: rest => conditionAfter field ⟨cursor.position + 1, rest⟩
    | token :: _ => .error (.noTerm cursor.position token)
    | [] => .error .endsBeforeTerm

/-- A formula at a cursor, with `budget` parentheses that may be opened. -/
def expression (budget : Nat) (cursor : Cursor) : Except Malformed Parsed := do
  let first ← term budget cursor
  chain (term budget) depthLimit first

/-- **The formula of a row of tokens**, all of which have to be used. -/
def parseTokens (tokens : List Token) : Except Malformed Formula := do
  let parsed ← expression depthLimit ⟨0, tokens⟩
  match parsed.cursor.rest with
  | [] => return parsed.formula
  | token :: _ => .error (.leftOver parsed.cursor.position token)

/-- **The formula of a rule text.** -/
def parse (text : String) : Except Malformed Formula := parseTokens (tokenize text)

end Rulebook
