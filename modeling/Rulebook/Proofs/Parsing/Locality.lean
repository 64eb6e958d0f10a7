import Rulebook.Proofs.Parsing

/-!
# What is read does not depend on what follows

A term is read to its end without a look at what comes behind it, and an expression with a
look at one token more, which must not be a connective. So the same tokens are read alike
before any other tokens (`exists_local_term`, `exists_local_expression`).

The end of the row is the exception. Where a parenthesis was left open because no token was
there to close it, a token that comes would be taken for the closing one. What was read up
to the end of its row is therefore only said to be read alike if it ends its row again.
-/

namespace Rulebook

/-- What has been read, with other tokens behind it. -/
def Parsed.leaving (parsed : Parsed) (rest : List Token) : Parsed :=
  { parsed with cursor := ⟨parsed.cursor.position, rest⟩ }

/-- **What was read at a cursor depends on its own tokens alone.** These are `used`, and it is
read alike before any tokens that can follow; if it was read up to the end of the row, only
the end can. -/
structure Parsed.Local (parsed : Parsed) (read : Cursor → Except Malformed Parsed)
    (canFollow : List Token → Prop) (cursor : Cursor) (used : List Token) : Prop where
  /-- The tokens that were read come first. -/
  rest_eq : cursor.rest = used ++ parsed.cursor.rest
  /-- The cursor has moved behind them. -/
  position_eq : parsed.cursor.position = cursor.position + used.length
  /-- They are read alike before other tokens. -/
  again : ∀ rest, canFollow rest → (parsed.cursor.rest = [] → rest = []) →
    read ⟨cursor.position, used ++ rest⟩ = .ok (parsed.leaving rest)

/-- **What is read as a term**, which anything can follow. -/
def Parsed.LocalTerm (parsed : Parsed) (read : Cursor → Except Malformed Parsed) :
    Cursor → List Token → Prop :=
  parsed.Local read fun _ => True

section Sequence

variable {read goOn whole : Cursor → Except Malformed Parsed} {canFollow : List Token → Prop}
  {cursor inner : Cursor} {first parsed : Parsed} {lead used later : List Token}

/-- **A term and what is read behind it** make up one thing that is local, if the reader of
the whole goes on behind the term, whatever tokens come there. -/
theorem Parsed.LocalTerm.andThen (hfirst : first.LocalTerm read inner used)
    (hlater : parsed.Local goOn canFollow first.cursor later)
    (hinner : cursor.rest = lead ++ inner.rest)
    (hposition : inner.position = cursor.position + lead.length)
    (hwhole : ∀ rest, read ⟨inner.position, used ++ rest⟩ = .ok (first.leaving rest) →
      whole ⟨cursor.position, lead ++ (used ++ rest)⟩ = goOn ⟨first.cursor.position, rest⟩) :
    parsed.Local whole canFollow cursor (lead ++ (used ++ later)) where
  rest_eq := by
    rw [hinner, hfirst.rest_eq, hlater.rest_eq, List.append_assoc, List.append_assoc]
  position_eq := by
    rw [hlater.position_eq, hfirst.position_eq, hposition, List.length_append,
      List.length_append, Nat.add_assoc, Nat.add_assoc]
  again rest hrest hend := by
    -- behind the term comes the end of the row only if it did before
    have hread : read ⟨inner.position, used ++ (later ++ rest)⟩
        = .ok (first.leaving (later ++ rest)) := by
      refine hfirst.again (later ++ rest) trivial fun hnil => ?_
      obtain ⟨rfl, hnil⟩ := List.append_eq_nil_iff.mp (hlater.rest_eq.symm.trans hnil)
      exact hend hnil
    rw [List.append_assoc, List.append_assoc, hwhole _ hread]
    exact hlater.again rest hrest hend

end Sequence

/-! ## Terms and chains -/

/-- A condition is read alike before any tokens. -/
theorem exists_local_condition (budget : Nat) {field : String} {cursor : Cursor}
    {rest : List Token} {parsed : Parsed} (hcursor : cursor.rest = .identifier field :: rest)
    (h : conditionAfter field ⟨cursor.position + 1, rest⟩ = .ok parsed) :
    ∃ used, parsed.LocalTerm (term budget) cursor used := by
  obtain ⟨comparator, t, literal, rest', hrest, ht, rfl⟩ := conditionAfter_eq_ok_iff.mp h
  have hrest : rest = .comparator comparator :: t :: rest' := hrest
  refine ⟨[.identifier field, .comparator comparator, t], ?_, rfl, fun tail _ _ => ?_⟩
  · rw [hcursor, hrest]
    rfl
  · rw [term_identifier budget rfl]
    exact conditionAfter_eq_ok_iff.mpr ⟨comparator, t, literal, tail, rfl, ht, rfl⟩

/-- **A chain of local terms is local**, if no connective follows it. -/
theorem exists_local_chain {next : Cursor → Except Malformed Parsed}
    (hnext : ∀ {cursor parsed}, next cursor = .ok parsed →
      ∃ used, parsed.LocalTerm next cursor used)
    {joints : Nat} {left parsed : Parsed} (h : chain next joints left = .ok parsed) :
    ∃ used, parsed.Local (fun cursor => chain next joints { left with cursor }) NoJoint
      left.cursor used := by
  induction joints using Nat.strongRecOn generalizing left with
  | _ joints ih =>
  obtain ⟨-, rfl⟩ | ⟨t, rest, op, right, more, hrest, hop, hright, hdepth, rfl, hmore⟩ :=
    chain_cases h
  · exact ⟨[], rfl, rfl, fun tail htail _ => chain_of_noJoint next joints htail⟩
  · obtain ⟨used, hused⟩ := hnext hright
    obtain ⟨later, hlater⟩ := ih more (Nat.lt_succ_self more) hmore
    refine ⟨[t] ++ (used ++ later), hused.andThen hlater hrest rfl fun tail hread => ?_⟩
    let again : Parsed := { left with cursor := ⟨left.cursor.position, t :: (used ++ tail)⟩ }
    exact chain_of_joint (show again.cursor.rest = t :: (used ++ tail) from rfl) hop hread hdepth

/-- **An expression of local terms is local**, if no connective follows it. -/
theorem exists_local_expression_of_term {budget : Nat}
    (hterm : ∀ {cursor parsed}, term budget cursor = .ok parsed →
      ∃ used, parsed.LocalTerm (term budget) cursor used)
    {cursor : Cursor} {parsed : Parsed} (h : expression budget cursor = .ok parsed) :
    ∃ used, parsed.Local (expression budget) NoJoint cursor used := by
  obtain ⟨first, hfirst, hchain⟩ := expression_eq_ok_iff.mp h
  obtain ⟨used, hused⟩ := hterm hfirst
  obtain ⟨later, hlater⟩ := exists_local_chain hterm hchain
  refine ⟨[] ++ (used ++ later), hused.andThen hlater rfl rfl fun rest hread => ?_⟩
  rw [expression, List.nil_append, hread]
  rfl

/-- An expression in parentheses is read alike before any tokens, unless it was read up to
the end of the row. -/
theorem exists_local_parentheses {less : Nat} {cursor : Cursor} {rest : List Token}
    {inner : Parsed} {used : List Token} (hcursor : cursor.rest = .leftParen :: rest)
    (hend : NoJoint inner.cursor.rest)
    (h : inner.Local (expression less) NoJoint ⟨cursor.position + 1, rest⟩ used) :
    ∃ used, inner.closed.LocalTerm (term (less + 1)) cursor used := by
  obtain ⟨f, depth, ⟨position, behind⟩⟩ := inner
  have hrest : rest = used ++ behind := h.rest_eq
  have hposition : position = cursor.position + 1 + used.length := h.position_eq
  cases behind with
  | nil =>
    refine ⟨.leftParen :: used, ?_, ?_, fun tail _ hnil => ?_⟩
    · rw [hcursor, hrest]
      rfl
    · rw [List.length_cons, Nat.add_comm used.length, ← Nat.add_assoc]
      exact hposition
    · cases hnil rfl
      have hread : expression less ⟨cursor.position + 1, used ++ []⟩ = .ok _ :=
        h.again [] noJoint_nil fun _ => rfl
      rw [List.cons_append, term_leftParen less rfl, hread]
      rfl
  | cons t behind =>
    -- the closing token is read as well, whatever follows it
    refine ⟨.leftParen :: (used ++ [t]), ?_, ?_, fun tail _ _ => ?_⟩
    · rw [hcursor, hrest, List.cons_append, List.append_assoc]
      rfl
    · show position + 1 = _
      rw [hposition, List.length_cons, List.length_append, List.length_singleton]
      omega
    · have hjoint : NoJoint (t :: tail) := by
        rintro _ _ ⟨⟩
        exact hend t behind rfl
      have hread : expression less ⟨cursor.position + 1, used ++ ([t] ++ tail)⟩ = .ok _ :=
        h.again (t :: tail) hjoint nofun
      rw [List.cons_append, List.append_assoc, term_leftParen less rfl, hread]
      rfl

/-- **A term is read alike before any tokens**, unless it was read up to the end of the
row. -/
theorem exists_local_term {budget : Nat} {cursor : Cursor} {parsed : Parsed}
    (h : term budget cursor = .ok parsed) :
    ∃ used, parsed.LocalTerm (term budget) cursor used := by
  induction budget using Nat.strongRecOn generalizing cursor parsed with
  | _ budget ih =>
  obtain ⟨rest, less, inner, hcursor, rfl, hinner, rfl⟩ | ⟨field, rest, hcursor, h⟩ :=
    term_cases h
  · obtain ⟨first, -, hchain⟩ := expression_eq_ok_iff.mp hinner
    obtain ⟨used, hused⟩ := exists_local_expression_of_term (ih less (Nat.lt_succ_self less)) hinner
    exact exists_local_parentheses hcursor (noJoint_of_chain hchain) hused
  · exact exists_local_condition budget hcursor h

/-- **An expression is read alike before any tokens** that do not begin with a connective,
unless it was read up to the end of the row. -/
theorem exists_local_expression {budget : Nat} {cursor : Cursor} {parsed : Parsed}
    (h : expression budget cursor = .ok parsed) :
    ∃ used, parsed.Local (expression budget) NoJoint cursor used :=
  exists_local_expression_of_term exists_local_term h

end Rulebook
