import Rulebook.Formula.Parser

/-!
# The grammar of rules

Which rows of tokens are a rule, said without a cursor, a budget or a
recursion:

    expression := term ((AND | OR) term)*
    term       := '(' expression closing | field comparator literal
    closing    := any token but AND and OR, or nothing at the end of the row

Chains grow to the left and both connectives have the same precedence. The
closing is where the grammar is tolerant: what stands there is not looked at,
except that a connective would go on with the chain instead.

`Reads` is that grammar as a relation between a row of tokens, the formula at
its start and the tokens behind the formula. It counts the parentheses that
are open around the place, of which there are never more than `depthLimit`.
`Derives` is the relation for a whole row, where the limit on the levels of a
formula comes in: it is one condition on the result, not one on each joint.
-/

namespace Rulebook

/-- **What can stand for the value of a condition**: a text, which loses its
two quotes if it has both and is otherwise taken as it is, or a finite
number. -/
inductive LiteralToken : Token → Value → Prop where
  /-- A text between its quotes. -/
  | stripped (body : String) : LiteralToken (.quotedText ("'" ++ body ++ "'")) (.text body)
  /-- A text that does not stand between two quotes. -/
  | kept (raw : String) (h : ∀ body, raw ≠ "'" ++ body ++ "'") :
    LiteralToken (.quotedText raw) (.text raw)
  /-- A finite number. -/
  | number (x : Binary64) (h : x.isFinite) : LiteralToken (.number x) (.number x)

/-- **What can stand in the place of a closing parenthesis**, and what is
left behind it. -/
inductive Closing : List Token → List Token → Prop where
  /-- Nothing, if no token is left. -/
  | absent : Closing [] []
  /-- Any single token that is no connective. -/
  | token {t : Token} {rest : List Token} (hand : t ≠ .and) (hor : t ≠ .or) :
    Closing (t :: rest) rest

/-- **The two kinds of phrase.** -/
inductive Phrase where
  /-- A condition, or an expression in parentheses. -/
  | term
  /-- A chain of terms. -/
  | expression
deriving DecidableEq

/-- **The grammar.** `Reads p opened tokens f rest` says that the row `tokens`
begins with a phrase of the kind `p` that stands for the formula `f` and
leaves `rest`, where `opened` parentheses are open around it. -/
inductive Reads : Phrase → (opened : Nat) → List Token → Formula → List Token → Prop where
  /-- A field, a comparator and a value. -/
  | condition {opened : Nat} {field : String} {comparator : Comparator} {t : Token}
      {literal : Value} {rest : List Token} (hliteral : LiteralToken t literal) :
    Reads .term opened (.identifier field :: .comparator comparator :: t :: rest)
      (.condition ⟨field, comparator, literal⟩) rest
  /-- An expression in parentheses. -/
  | parentheses {opened : Nat} {tokens rest rest' : List Token} {f : Formula}
      (hopened : opened < depthLimit) (inner : Reads .expression (opened + 1) tokens f rest)
      (hclosing : Closing rest rest') :
    Reads .term opened (.leftParen :: tokens) f rest'
  /-- A single term. -/
  | single {opened : Nat} {tokens rest : List Token} {f : Formula}
      (first : Reads .term opened tokens f rest) :
    Reads .expression opened tokens f rest
  /-- A chain with one more term. -/
  | joined {opened : Nat} {tokens middle rest : List Token} {t : Token} {op : Connective}
      {f g : Formula} (left : Reads .expression opened tokens f (t :: middle))
      (hop : t.connective? = some op) (right : Reads .term opened middle g rest) :
    Reads .expression opened tokens (.join op f g) rest

/-- **The rows of tokens that are a rule**, and the formula of each: the whole
row is an expression, and the formula has at most `depthLimit` levels. -/
def Derives (tokens : List Token) (f : Formula) : Prop :=
  Reads .expression 0 tokens f [] ∧ f.depth ≤ depthLimit

/-! ## Small facts -/

theorem Token.connective?_eq_none_iff {t : Token} :
    t.connective? = none ↔ t ≠ .and ∧ t ≠ .or := by
  cases t <;> simp [Token.connective?]

/-- A connective is none that is made up. -/
theorem Token.isKnown_of_connective? {t : Token} {op : Connective}
    (h : t.connective? = some op) : op.isKnown := by
  cases t <;> simp [Token.connective?] at h <;> subst h <;> rfl

theorem Closing.isSuffix {tokens rest : List Token} (h : Closing tokens rest) :
    rest <:+ tokens := by
  cases h with
  | absent => exact List.suffix_rfl
  | token hand hor => exact List.suffix_cons _ _

/-- **What a phrase leaves is the end of the row.** -/
theorem Reads.isSuffix {phrase : Phrase} {opened : Nat} {tokens rest : List Token} {f : Formula}
    (h : Reads phrase opened tokens f rest) : rest <:+ tokens := by
  induction h with
  | condition hliteral => exact ⟨[_, _, _], rfl⟩
  | parentheses hopened inner hclosing ih =>
    exact (hclosing.isSuffix.trans ih).trans (List.suffix_cons _ _)
  | single first ih => exact ih
  | joined left hop right ihleft ihright =>
    exact (ihright.trans (List.suffix_cons _ _)).trans ihleft

namespace Formula

theorem depth_left_lt (op : Connective) (f g : Formula) : f.depth < (join op f g).depth := by
  rw [depth]
  omega

theorem depth_right_lt (op : Connective) (f g : Formula) : g.depth < (join op f g).depth := by
  rw [depth]
  omega

end Formula

end Rulebook
