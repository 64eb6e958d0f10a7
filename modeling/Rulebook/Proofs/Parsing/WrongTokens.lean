import Mathlib.Logic.ExistsUnique
import Rulebook.Proofs.Parsing.Locality

/-!
# Tokens of the wrong kind

Four faults are about the kind of a token: one that is left over behind an expression, one
that cannot begin a term, one that stands where a comparator should, and one that stands
where a value should. Reading stops at such a token, and has not looked at anything behind
it: every row with the same beginning is refused with the same fault. And without the token
it would have gone on: the tokens before it alone are a rule, or end too early, at the very
place where the fault found something wrong (`existsUnique_wrongToken`).

Two of these faults do not tell where the token stands, and the place is not in the result
otherwise. It is told by what happens to shorter and to other rows, and these leave only one
place. Inside, a reader that finds a wrong token is said to stumble over it
(`StumblesOver`), and that is handed on from a reader to the one that called it
(`StumblesOver.whole`).
-/

namespace Rulebook

namespace Malformed

/-- **The token of the wrong kind**, if the fault is about the kind of a token. -/
def wrongToken? : Malformed → Option Token
  | leftOver _ token | noTerm _ token | noComparator _ token | noLiteral _ _ token => some token
  | _ => none

/-- **The position that the message tells**, if it tells one. -/
def position? : Malformed → Option Nat
  | leftOver position _ | noTerm position _ => some position
  | _ => none

/-- The message begins with the position. -/
theorem message_of_position? {fault : Malformed} {position : Nat}
    (h : fault.position? = some position) :
    ∃ behind, fault.message = s!"位置 {position}" ++ behind := by
  cases fault with
  | leftOver _ token =>
    cases h
    exact ⟨s!" 存在多余的 {token.description}", String.append_assoc⟩
  | noTerm _ token =>
    cases h
    exact ⟨s!" 期望条件或 '('，实际为 {token.description}", String.append_assoc⟩
  | _ => cases h

/-- What is said instead if the row ends before the wrong token. -/
def ifEnded? : Malformed → Option Malformed
  | noTerm _ _ => some endsBeforeTerm
  | noComparator field _ => some (endsBeforeComparator field)
  | noLiteral field comparator _ => some (endsBeforeLiteral field comparator)
  | _ => none

/-- The tokens that the message tells of and that stand right before the wrong token. -/
def lead : Malformed → List Token
  | noComparator field _ => [.identifier field]
  | noLiteral field comparator _ => [.identifier field, .comparator comparator]
  | _ => []

end Malformed

/-- **A reader stumbles over a token** of the wrong kind: it is told by the fault and stands
behind the tokens `before`, and nothing behind it counts. -/
structure StumblesOver (read : Cursor → Except Malformed Parsed) (cursor : Cursor)
    (fault : Malformed) (before : List Token) (token : Token) : Prop where
  /-- The token stands behind these tokens. -/
  begins : before ++ [token] <+: cursor.rest
  /-- If the fault tells a position, it is that of the token. -/
  position_eq : ∀ position ∈ fault.position?, position = cursor.position + before.length
  /-- What the fault tells of stands before the token. -/
  lead_suffix : fault.lead <:+ before
  /-- The fault is the same whatever stands behind the token. -/
  again : ∀ after, read ⟨cursor.position, before ++ token :: after⟩ = .error fault
  /-- Without the token the row ends too early. -/
  ended : ∃ early ∈ fault.ifEnded?, read ⟨cursor.position, before⟩ = .error early

/-- **Stumbling is handed on** to a reader that has read some tokens first and hands on every
fault that is found behind them. -/
theorem StumblesOver.whole {read whole : Cursor → Except Malformed Parsed} {cursor inner : Cursor}
    {fault : Malformed} {used before : List Token} {token : Token}
    (h : StumblesOver read inner fault before token) (hrest : cursor.rest = used ++ inner.rest)
    (hposition : inner.position = cursor.position + used.length)
    (hwhole : ∀ rest early, read ⟨inner.position, rest⟩ = .error early →
      whole ⟨cursor.position, used ++ rest⟩ = .error early) :
    StumblesOver whole cursor fault (used ++ before) token where
  begins := by
    rw [hrest, List.append_assoc]
    exact (List.prefix_append_right_inj used).mpr h.begins
  position_eq position hp := by
    rw [h.position_eq position hp, hposition, List.length_append, Nat.add_assoc]
  lead_suffix := h.lead_suffix.trans (List.suffix_append used before)
  again after := by
    rw [List.append_assoc]
    exact hwhole _ fault (h.again after)
  ended := by
    obtain ⟨early, hearly, hread⟩ := h.ended
    exact ⟨early, hearly, hwhole before early hread⟩

variable {fault : Malformed} {token : Token}

/-- A reader that stumbles is not at the end of its row. -/
theorem StumblesOver.rest_ne_nil {read : Cursor → Except Malformed Parsed} {cursor : Cursor}
    {before : List Token} (h : StumblesOver read cursor fault before token) :
    cursor.rest ≠ [] := by
  intro hnil
  have hbegins := h.begins
  rw [hnil, List.prefix_nil] at hbegins
  exact List.append_ne_nil_of_right_ne_nil before (List.cons_ne_nil token []) hbegins

/-! ## Conditions -/

/-- **Why the rest of a condition is refused**, if a token in it is of the wrong kind: the
token stands in the place of the comparator, or in that of the value, and it is refused there
whatever follows. -/
theorem conditionAfter_error_cases {field : String} {cursor : Cursor}
    (h : conditionAfter field cursor = .error fault) (htoken : fault.wrongToken? = some token) :
    (fault = .noComparator field token ∧ (∃ rest, cursor.rest = token :: rest) ∧
        ∀ position after, conditionAfter field ⟨position, token :: after⟩ = .error fault) ∨
      ∃ comparator, fault = .noLiteral field comparator token ∧
        (∃ rest, cursor.rest = .comparator comparator :: token :: rest) ∧
        ∀ position after,
          conditionAfter field ⟨position, .comparator comparator :: token :: after⟩
            = .error fault := by
  obtain ⟨position, tokens⟩ := cursor
  cases tokens with
  | nil =>
    cases h
    cases htoken
  | cons t rest =>
    cases t with
    | comparator comparator =>
      cases rest with
      | nil =>
        cases h
        cases htoken
      | cons t rest =>
        cases t with
        | quotedText raw => cases h
        | number x =>
          -- a number that is not finite is refused, but not for its kind
          unfold conditionAfter at h
          dsimp only at h
          split at h
          · cases h
          · cases h
            cases htoken
        | _ =>
          cases h
          cases htoken
          exact .inr ⟨comparator, rfl, ⟨rest, rfl⟩, fun _ _ => rfl⟩
    | _ =>
      cases h
      cases htoken
      exact .inl ⟨rfl, ⟨rest, rfl⟩, fun _ _ => rfl⟩

/-- **A condition stumbles** over a token that is no comparator, or no value. -/
theorem exists_stumbles_condition (budget : Nat) {field : String} {cursor : Cursor}
    {rest : List Token} (hcursor : cursor.rest = .identifier field :: rest)
    (h : conditionAfter field ⟨cursor.position + 1, rest⟩ = .error fault)
    (htoken : fault.wrongToken? = some token) :
    ∃ before, StumblesOver (term budget) cursor fault before token := by
  obtain ⟨rfl, ⟨rest', hrest⟩, hagain⟩ | ⟨comparator, rfl, ⟨rest', hrest⟩, hagain⟩ :=
    conditionAfter_error_cases h htoken
  · refine ⟨[.identifier field], ?_, nofun, List.suffix_rfl, fun after => ?_, ?_⟩
    · rw [hcursor, show rest = token :: rest' from hrest]
      exact List.prefix_append [.identifier field, token] rest'
    · exact (term_identifier budget rfl).trans (hagain _ after)
    · exact ⟨.endsBeforeComparator field, rfl, (term_identifier budget rfl).trans rfl⟩
  · refine ⟨[.identifier field, .comparator comparator], ?_, nofun, List.suffix_rfl,
      fun after => ?_, ?_⟩
    · rw [hcursor, show rest = .comparator comparator :: token :: rest' from hrest]
      exact List.prefix_append [.identifier field, .comparator comparator, token] rest'
    · exact (term_identifier budget rfl).trans (hagain _ after)
    · exact ⟨.endsBeforeLiteral field comparator, rfl, (term_identifier budget rfl).trans rfl⟩

/-! ## Chains -/

/-- **Why a chain is refused**: a term in it is refused, or it gets too deep. -/
theorem chain_error_cases {next : Cursor → Except Malformed Parsed} {joints : Nat} {left : Parsed}
    (h : chain next joints left = .error fault) :
    ∃ t rest op, left.cursor.rest = t :: rest ∧ t.connective? = some op ∧
      (next ⟨left.cursor.position + 1, rest⟩ = .error fault ∨ fault = .tooDeep ∨
        ∃ right more, next ⟨left.cursor.position + 1, rest⟩ = .ok right ∧
          max left.depth right.depth + 1 ≤ depthLimit ∧ joints = more + 1 ∧
          chain next more
            ⟨.join op left.formula right.formula, max left.depth right.depth + 1, right.cursor⟩
            = .error fault) := by
  unfold chain at h
  split at h
  · cases h
  · rename_i t rest hrest
    split at h
    · cases h
    · rename_i op hop
      refine ⟨t, rest, op, hrest, hop, ?_⟩
      cases hright : next ⟨left.cursor.position + 1, rest⟩ with
      | error fault' =>
        rw [hright] at h
        cases h
        exact .inl rfl
      | ok right =>
        rw [hright] at h
        simp only [bind, Except.bind] at h
        split at h
        · cases h
          exact .inr (.inl rfl)
        · rename_i hdepth
          cases joints with
          | zero =>
            cases h
            exact .inr (.inl rfl)
          | succ more => exact .inr (.inr ⟨right, more, rfl, Nat.not_lt.mp hdepth, rfl, h⟩)

/-- A chain hands on what is wrong with its next term. -/
theorem chain_of_error {next : Cursor → Except Malformed Parsed} (joints : Nat) {left : Parsed}
    {t : Token} {rest : List Token} {op : Connective} (hrest : left.cursor.rest = t :: rest)
    (hop : t.connective? = some op)
    (hnext : next ⟨left.cursor.position + 1, rest⟩ = .error fault) :
    chain next joints left = .error fault := by
  unfold chain
  rw [hrest]
  dsimp only
  rw [hop]
  dsimp only
  rw [hnext]
  rfl

/-- **A chain stumbles** where one of its terms does. -/
theorem exists_stumbles_chain {next : Cursor → Except Malformed Parsed}
    (hlocal : ∀ {cursor parsed}, next cursor = .ok parsed →
      ∃ used, parsed.LocalTerm next cursor used)
    (hnext : ∀ {cursor}, next cursor = .error fault →
      ∃ before, StumblesOver next cursor fault before token)
    (htoken : fault.wrongToken? = some token) {joints : Nat} {left : Parsed}
    (h : chain next joints left = .error fault) :
    ∃ before, StumblesOver (fun cursor => chain next joints { left with cursor }) left.cursor
      fault before token := by
  induction joints using Nat.strongRecOn generalizing left with
  | _ joints ih =>
  obtain ⟨t, rest, op, hrest, hop, hright | rfl | ⟨right, more, hright, hdepth, rfl, hmore⟩⟩ :=
    chain_error_cases h
  · obtain ⟨before, hbefore⟩ := hnext hright
    refine ⟨[t] ++ before, hbefore.whole hrest rfl fun tail early hread => ?_⟩
    let again : Parsed := { left with cursor := ⟨left.cursor.position, t :: tail⟩ }
    exact chain_of_error joints (show again.cursor.rest = t :: tail from rfl) hop hread
  · cases htoken
  · obtain ⟨used, hused⟩ := hlocal hright
    obtain ⟨before, hbefore⟩ := ih more (Nat.lt_succ_self more) hmore
    refine ⟨([t] ++ used) ++ before, hbefore.whole ?_ ?_ fun tail early hread => ?_⟩
    · rw [hrest, List.append_assoc]
      exact congrArg ([t] ++ ·) hused.rest_eq
    · show right.cursor.position = _
      rw [hused.position_eq, List.length_append, List.length_singleton, Nat.add_assoc]
    · have hright : next ⟨left.cursor.position + 1, used ++ tail⟩ = .ok (right.leaving tail) :=
        hused.again tail trivial fun hnil => absurd hnil hbefore.rest_ne_nil
      let again : Parsed := { left with cursor := ⟨left.cursor.position, t :: (used ++ tail)⟩ }
      exact (chain_of_joint (show again.cursor.rest = t :: (used ++ tail) from rfl) hop hright
        hdepth).trans hread

/-! ## Terms and expressions -/

/-- **An expression stumbles** where its first term does, or one in the chain behind it. -/
theorem exists_stumbles_expression_of_term {budget : Nat}
    (hterm : ∀ {cursor}, term budget cursor = .error fault →
      ∃ before, StumblesOver (term budget) cursor fault before token)
    (htoken : fault.wrongToken? = some token) {cursor : Cursor}
    (h : expression budget cursor = .error fault) :
    ∃ before, StumblesOver (expression budget) cursor fault before token := by
  unfold expression at h
  cases hfirst : term budget cursor with
  | error fault' =>
    rw [hfirst] at h
    cases h
    obtain ⟨before, hbefore⟩ := hterm hfirst
    refine ⟨[] ++ before, hbefore.whole rfl rfl fun tail early hread => ?_⟩
    rw [expression, List.nil_append, hread]
    rfl
  | ok first =>
    rw [hfirst] at h
    obtain ⟨used, hused⟩ := exists_local_term hfirst
    obtain ⟨before, hbefore⟩ := exists_stumbles_chain exists_local_term hterm htoken h
    refine ⟨used ++ before,
      hbefore.whole hused.rest_eq hused.position_eq fun tail early hread => ?_⟩
    rw [expression, hused.again tail trivial fun hnil => absurd hnil hbefore.rest_ne_nil]
    exact hread

/-- **Why a term is refused**, if a token in it is of the wrong kind: an expression in
parentheses is refused, or a condition, or the token cannot begin a term. -/
theorem term_error_cases {budget : Nat} {cursor : Cursor} (h : term budget cursor = .error fault)
    (htoken : fault.wrongToken? = some token) :
    (∃ rest less, cursor.rest = .leftParen :: rest ∧ budget = less + 1 ∧
        expression less ⟨cursor.position + 1, rest⟩ = .error fault) ∨
      (∃ field rest, cursor.rest = .identifier field :: rest ∧
        conditionAfter field ⟨cursor.position + 1, rest⟩ = .error fault) ∨
      fault = .noTerm cursor.position token ∧ (∃ rest, cursor.rest = token :: rest) ∧
        ∀ after, term budget ⟨cursor.position, token :: after⟩ = .error fault := by
  cases hrest : cursor.rest with
  | nil =>
    rw [term, hrest] at h
    cases h
    cases htoken
  | cons t rest =>
    cases t with
    | leftParen =>
      cases budget with
      | zero =>
        rw [term, hrest] at h
        cases h
        cases htoken
      | succ less =>
        rw [term_leftParen less hrest] at h
        cases hinner : expression less ⟨cursor.position + 1, rest⟩ with
        | error fault' =>
          rw [hinner] at h
          cases h
          exact .inl ⟨rest, less, rfl, rfl, hinner⟩
        | ok inner =>
          rw [hinner] at h
          cases h
    | identifier field =>
      rw [term_identifier budget hrest] at h
      exact .inr (.inl ⟨field, rest, rfl, h⟩)
    | _ =>
      rw [term, hrest] at h
      cases h
      cases htoken
      exact .inr (.inr ⟨rfl, ⟨rest, rfl⟩, fun after => by rw [term]⟩)

/-- A term stumbles over a token that cannot begin one. -/
theorem stumbles_noTerm {budget : Nat} {cursor : Cursor}
    (hrest : ∃ rest, cursor.rest = token :: rest)
    (hagain : ∀ after, term budget ⟨cursor.position, token :: after⟩
      = .error (.noTerm cursor.position token)) :
    StumblesOver (term budget) cursor (.noTerm cursor.position token) [] token where
  begins := by
    obtain ⟨rest, hrest⟩ := hrest
    rw [hrest]
    exact List.prefix_append [token] rest
  position_eq := by
    rintro _ ⟨⟩
    rfl
  lead_suffix := List.suffix_rfl
  again := hagain
  ended := ⟨.endsBeforeTerm, rfl, by rw [term]⟩

/-- **A term stumbles** over every token of the wrong kind that it is refused for. -/
theorem exists_stumbles_term (htoken : fault.wrongToken? = some token) {budget : Nat}
    {cursor : Cursor} (h : term budget cursor = .error fault) :
    ∃ before, StumblesOver (term budget) cursor fault before token := by
  induction budget using Nat.strongRecOn generalizing cursor with
  | _ budget ih =>
  obtain ⟨rest, less, hcursor, rfl, hinner⟩ | ⟨field, rest, hcursor, h⟩ | ⟨rfl, hrest, hagain⟩ :=
    term_error_cases h htoken
  · obtain ⟨before, hbefore⟩ :=
      exists_stumbles_expression_of_term (ih less (Nat.lt_succ_self less)) htoken hinner
    refine ⟨[Token.leftParen] ++ before, hbefore.whole hcursor rfl fun tail early hread => ?_⟩
    rw [List.singleton_append, term_leftParen less rfl, hread]
    rfl
  · exact exists_stumbles_condition budget hcursor h htoken
  · exact ⟨[], stumbles_noTerm hrest hagain⟩

/-- **An expression stumbles** over every token of the wrong kind that it is refused for. -/
theorem exists_stumbles_expression (htoken : fault.wrongToken? = some token) {budget : Nat}
    {cursor : Cursor} (h : expression budget cursor = .error fault) :
    ∃ before, StumblesOver (expression budget) cursor fault before token :=
  exists_stumbles_expression_of_term (exists_stumbles_term htoken) htoken h

/-! ## Rules -/

/-- **Without the token all was well so far**: the tokens before it alone are a rule, or they
end too early, at the place where the fault found something wrong. -/
def Malformed.GoesOn (before : List Token) : Malformed → Prop
  | leftOver _ _ => ∃ f, parseTokens before = .ok f
  | noTerm _ _ => parseTokens before = .error endsBeforeTerm
  | noComparator field _ =>
    [.identifier field] <:+ before ∧ parseTokens before = .error (endsBeforeComparator field)
  | noLiteral field comparator _ =>
    [.identifier field, .comparator comparator] <:+ before ∧
      parseTokens before = .error (endsBeforeLiteral field comparator)
  | _ => False

/-- The tokens before a wrong one are not refused for it. -/
theorem Malformed.GoesOn.parseTokens_ne {before : List Token} (h : fault.GoesOn before) :
    parseTokens before ≠ .error fault := by
  intro hfault
  cases fault with
  | leftOver =>
    obtain ⟨f, hf⟩ := h
    cases hf.symm.trans hfault
  | noTerm => cases h.symm.trans hfault
  | noComparator => cases h.2.symm.trans hfault
  | noLiteral => cases h.2.symm.trans hfault
  | _ => exact h

/-- **The place of a wrong token** in a row that is refused for it. -/
structure Malformed.FoundAt (fault : Malformed) (token : Token) (tokens : List Token)
    (place : Nat) : Prop where
  /-- The place is in the row. -/
  lt_length : place < tokens.length
  /-- The token is there. -/
  getElem?_eq : tokens[place]? = some token
  /-- If the message tells a position, it is this place. -/
  position_eq : ∀ position, fault.position? = some position → position = place
  /-- The message begins with it then. -/
  message_eq : fault.position?.isSome → ∃ behind, fault.message = s!"位置 {place}" ++ behind
  /-- Without the token all was well so far. -/
  goesOn : fault.GoesOn (tokens.take place)
  /-- Every row with the same beginning, up to the token, is refused in the same way. -/
  again : ∀ others, others.take (place + 1) = tokens.take (place + 1) →
    parseTokens others = .error fault

/-- A wrong token stands at one place at most. -/
theorem Malformed.FoundAt.not_lt {tokens : List Token} {place later : Nat}
    (h : fault.FoundAt token tokens place) (hlater : fault.FoundAt token tokens later) :
    ¬ place < later := by
  intro hlt
  -- the row that ends before the later place still has the earlier one
  refine hlater.goesOn.parseTokens_ne (h.again (tokens.take later) ?_)
  rw [List.take_take, Nat.min_eq_left hlt]

/-- The place of a wrong token is behind the tokens before it. -/
theorem Malformed.foundAt_of_append {before : List Token} (after : List Token)
    (hposition : ∀ position, fault.position? = some position → position = before.length)
    (hgoesOn : fault.GoesOn before)
    (hagain : ∀ after, parseTokens (before ++ token :: after) = .error fault) :
    fault.FoundAt token (before ++ token :: after) before.length where
  lt_length := by
    rw [List.length_append, List.length_cons]
    omega
  getElem?_eq := by
    rw [List.getElem?_append_right (Nat.le_refl _), Nat.sub_self]
    rfl
  position_eq := hposition
  message_eq h := by
    obtain ⟨position, hp⟩ := Option.isSome_iff_exists.mp h
    rw [← hposition position hp]
    exact message_of_position? hp
  goesOn := by rwa [List.take_left]
  again others hothers := by
    have htake : (before ++ token :: after).take (before.length + 1) = before ++ [token] := by
      rw [List.take_length_add_append]
      rfl
    rw [← List.take_append_drop (before.length + 1) others, hothers, htake, ← List.append_cons]
    exact hagain (others.drop (before.length + 1))

/-- What is wrong with an expression is wrong with the row. -/
theorem parseTokens_of_error {tokens : List Token}
    (h : expression depthLimit ⟨0, tokens⟩ = .error fault) : parseTokens tokens = .error fault := by
  rw [parseTokens, h]
  rfl

/-- Where the expression of a row stumbles, all was well so far. -/
theorem StumblesOver.goesOn {tokens before : List Token}
    (h : StumblesOver (expression depthLimit) ⟨0, tokens⟩ fault before token) :
    fault.GoesOn before := by
  obtain ⟨early, hearly, hread⟩ := h.ended
  have hparse := parseTokens_of_error hread
  have hlead := h.lead_suffix
  cases fault with
  | noTerm =>
    cases hearly
    exact hparse
  | noComparator =>
    cases hearly
    exact ⟨hlead, hparse⟩
  | noLiteral =>
    cases hearly
    exact ⟨hlead, hparse⟩
  | _ => cases hearly

/-- A wrong token that the expression of a row stumbles over has a place. -/
theorem StumblesOver.exists_foundAt {tokens before : List Token}
    (h : StumblesOver (expression depthLimit) ⟨0, tokens⟩ fault before token) :
    ∃ place, fault.FoundAt token tokens place := by
  obtain ⟨after, hafter⟩ := h.begins
  have htokens : tokens = before ++ token :: after := by
    rw [List.append_cons]
    exact hafter.symm
  rw [htokens]
  refine ⟨before.length, Malformed.foundAt_of_append after (fun position hp => ?_) h.goesOn
    fun after => parseTokens_of_error (h.again after)⟩
  rw [h.position_eq position hp, Nat.zero_add]

/-- A token that is left over behind an expression has a place. -/
theorem exists_foundAt_leftOver {tokens rest : List Token} {parsed : Parsed}
    (h : expression depthLimit ⟨0, tokens⟩ = .ok parsed)
    (hrest : parsed.cursor.rest = token :: rest) :
    ∃ place, (Malformed.leftOver parsed.cursor.position token).FoundAt token tokens place := by
  obtain ⟨used, hused⟩ := exists_local_expression h
  have hread (behind : List Token) (hjoint : NoJoint behind) :
      expression depthLimit ⟨0, used ++ behind⟩ = .ok (parsed.leaving behind) :=
    hused.again behind hjoint fun hnil => by cases hrest.symm.trans hnil
  have htokens : tokens = used ++ token :: rest := hrest ▸ hused.rest_eq
  have hposition : parsed.cursor.position = used.length :=
    hused.position_eq.trans (Nat.zero_add _)
  rw [htokens]
  refine ⟨used.length, Malformed.foundAt_of_append rest ?_ ?_ fun after => ?_⟩
  · rintro _ ⟨⟩
    exact hposition
  · refine ⟨parsed.formula, ?_⟩
    rw [parseTokens, ← List.append_nil used, hread [] noJoint_nil]
    rfl
  · -- no connective is left behind an expression
    obtain ⟨first, -, hchain⟩ := expression_eq_ok_iff.mp h
    have hend : token.connective? = none := noJoint_of_chain hchain token rest hrest
    have hjoint : NoJoint (token :: after) := by
      rintro _ _ ⟨⟩
      exact hend
    rw [parseTokens, hread (token :: after) hjoint]
    rfl

/-- A row that is refused for a wrong token has it at a place. -/
theorem exists_foundAt {tokens : List Token} (hfault : parseTokens tokens = .error fault)
    (htoken : fault.wrongToken? = some token) : ∃ place, fault.FoundAt token tokens place := by
  unfold parseTokens at hfault
  cases hread : expression depthLimit ⟨0, tokens⟩ with
  | error fault' =>
    rw [hread] at hfault
    cases hfault
    obtain ⟨before, hbefore⟩ := exists_stumbles_expression htoken hread
    exact hbefore.exists_foundAt
  | ok parsed =>
    rw [hread] at hfault
    simp only [bind, Except.bind] at hfault
    split at hfault
    · cases hfault
    · rename_i t rest hrest
      cases hfault
      cases htoken
      exact exists_foundAt_leftOver hread hrest

/-- **Tokens of the wrong kind**: a row that is refused for such a token has it at one place,
and only one place fits. The position in the message, if there is one, is this place; every
row with the same tokens up to there is refused with the same fault; and without the token all
was well so far, so that the tokens before one that is left over are a rule. -/
theorem existsUnique_wrongToken {tokens : List Token} {fault : Malformed} {token : Token}
    (hfault : parseTokens tokens = .error fault) (htoken : fault.wrongToken? = some token) :
    ∃! place, fault.FoundAt token tokens place := by
  obtain ⟨place, hplace⟩ := exists_foundAt hfault htoken
  refine ⟨place, hplace, fun other hother => ?_⟩
  exact Nat.le_antisymm (Nat.not_lt.mp (hplace.not_lt hother))
    (Nat.not_lt.mp (hother.not_lt hplace))

/-- A connective where the second condition should have its comparator. -/
theorem existsUnique_wrongToken_in_parentheses :
    ∃! place, (Malformed.noComparator "b" .and).FoundAt .and
      [.leftParen, .identifier "a", .comparator .lt, .quotedText "'x'", .rightParen, .or,
        .leftParen, .identifier "b", .and, .rightParen] place :=
  existsUnique_wrongToken rfl rfl

end Rulebook
