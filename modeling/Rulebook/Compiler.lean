import Rulebook.Formula.Parser
import Rulebook.Rule

/-!
# Compiling rules

Compiling a rule text gives a rule with the fields it asks for and a number
that counts what has been compiled. A text that is no rule does not count.
-/

namespace Rulebook

/-- The fields of a formula, each once, in ascending order. -/
def Formula.fields (f : Formula) : List String :=
  (f.conditions.foldl (fun t c => t.insert c.field ()) (Table.empty : Table Unit)).entries.map
    Prod.fst

/-- **A compiled rule.** -/
structure CompiledRule where
  /-- The rule. -/
  rule : Rule
  /-- The fields that the rule asks for. -/
  requiredFields : List String
  /-- How many rules have been compiled, with this one. -/
  version : Nat

/-- **A compiler**, which is a count of what has been compiled. -/
structure Compiler where
  /-- The number of rules compiled so far. -/
  version : Nat

namespace Compiler

/-- A compiler that has compiled nothing yet. -/
def fresh : Compiler := ⟨0⟩

/-- What is given to a new rule from outside: its id and its time. -/
structure Stamp where
  /-- The id. -/
  id : String
  /-- The time of creation. -/
  now : Instant

/-- **Compiling a rule** that has been read already. -/
def compileRule (compiler : Compiler) (rule : Rule) : Compiler × CompiledRule :=
  let version := compiler.version + 1
  (⟨version⟩, ⟨rule, rule.formula.fields, version⟩)

/-- **Compiling a rule text.** -/
def compile (compiler : Compiler) (stamp : Stamp) (text : String) :
    Compiler × Except Malformed CompiledRule :=
  match parse text with
  | .ok formula =>
    let (compiler, compiled) := compiler.compileRule ⟨stamp.id, text, formula, stamp.now⟩
    (compiler, .ok compiled)
  | .error fault => (compiler, .error fault)

/-- The journal of compiling a rule text. -/
def journal (text : String) : Journal :=
  tokenizeJournal text
    ++ match parse text with
      | .ok _ =>
        [.event .debug .compiler "规则文本解析完成"
          [("tokens", .number (tokenize text).length)]]
      | .error _ => []

end Compiler

end Rulebook
