import Mathlib.Logic.Relation
import Rulebook.Proofs.Parsing

/-!
# Reading tokens call by call

`expression` and `term` call each other. Their results do not tell how many calls wait for
one another at a time, where the cursor stands then, or how many parentheses are counted.
Here reading is a row of small steps instead, with the calls that wait on a stack: an
expression waits for a term, and a term waits for the expression in its parentheses.

The steps count the parentheses that are open, where `expression` and `term` are given those
that may still be opened, and no step knows the joints that may still follow. That this
makes no difference is `comesTo_readPhrase`: the steps from a call, with any calls that
wait for it, come to what the function called returns, or fail as it fails.
-/

namespace Rulebook

/-! ## Steps -/

/-- **A call that waits** for another one to return. -/
inductive Frame where
  /-- An expression waits for its first term. -/
  | first
  /-- An expression waits for the term behind a connective; `left` is what it has read before
  and `depth` the depth it has counted. -/
  | joint (left : Formula) (depth : Nat) (op : Connective)
  /-- A term waits for the expression in its parentheses. -/
  | parentheses

/-- **What is done next.** -/
inductive Control where
  /-- A phrase is called. -/
  | call (phrase : Phrase)
  /-- An expression that has read `left` looks for one more joint. -/
  | loop (left : Formula) (depth : Nat)
  /-- A phrase has been read, and its call returns a formula and a depth. -/
  | returned (phrase : Phrase) (formula : Formula) (depth : Nat)

/-- **A place in the course of reading.** -/
structure Walk where
  /-- What is done next. -/
  control : Control
  /-- The number of tokens before the cursor. -/
  position : Nat
  /-- The number of parentheses that are open. -/
  nesting : Nat
  /-- The calls that wait, the last one first. -/
  frames : List Frame

/-- **What a step leads to.** -/
inductive Next where
  /-- Reading goes on. -/
  | going (walk : Walk)
  /-- The first call has returned. -/
  | ended
  /-- The tokens are no phrase. -/
  | failed (fault : Malformed)

/-- The place behind the token at a position, if there is one. -/
def skipAt (tokens : List Token) (position : Nat) : Nat :=
  if position < tokens.length then position + 1 else position

/-- The walk from a call at a position, with no other call waiting. -/
def Walk.called (phrase : Phrase) (position nesting : Nat) : Walk :=
  ⟨.call phrase, position, nesting, []⟩

/-- A step of a term that is called. A condition is read in one step. -/
def stepTerm (tokens : List Token) (position nesting : Nat) (frames : List Frame) : Next :=
  match tokens[position]? with
  | some .leftParen =>
    if depthLimit < nesting + 1 then .failed .tooManyOpen
    else .going ⟨.call .expression, position + 1, nesting + 1, .parentheses :: frames⟩
  | some (.identifier field) =>
    match conditionAfter field ⟨position + 1, tokens.drop (position + 1)⟩ with
    | .ok parsed =>
      .going ⟨.returned .term parsed.formula parsed.depth, parsed.cursor.position, nesting, frames⟩
    | .error fault => .failed fault
  | some token => .failed (.noTerm position token)
  | none => .failed .endsBeforeTerm

/-- **One step of reading.** -/
def Walk.step (tokens : List Token) : Walk → Next
  | ⟨.call .expression, position, nesting, frames⟩ =>
    .going ⟨.call .term, position, nesting, .first :: frames⟩
  | ⟨.call .term, position, nesting, frames⟩ => stepTerm tokens position nesting frames
  | ⟨.loop left depth, position, nesting, frames⟩ =>
    match tokens[position]?.bind Token.connective? with
    | some op => .going ⟨.call .term, position + 1, nesting, .joint left depth op :: frames⟩
    | none => .going ⟨.returned .expression left depth, position, nesting, frames⟩
  | ⟨.returned _ formula depth, position, nesting, .first :: frames⟩ =>
    .going ⟨.loop formula depth, position, nesting, frames⟩
  | ⟨.returned _ right rightDepth, position, nesting, .joint left depth op :: frames⟩ =>
    if depthLimit < max depth rightDepth + 1 then .failed .tooDeep
    else .going ⟨.loop (.join op left right) (max depth rightDepth + 1), position, nesting, frames⟩
  | ⟨.returned _ formula depth, position, nesting, .parentheses :: frames⟩ =>
    .going ⟨.returned .term formula depth, skipAt tokens position, nesting - 1, frames⟩
  | ⟨.returned _ _ _, _, _, []⟩ => .ended

/-- Some steps of reading lead from one place to another. -/
abbrev Steps (tokens : List Token) : Walk → Walk → Prop :=
  Relation.ReflTransGen fun earlier later => Walk.step tokens earlier = .going later

/-! ## What a walk comes to -/

/-- The cursor at a position of a row of tokens. -/
def cursorAt (tokens : List Token) (position : Nat) : Cursor := ⟨position, tokens.drop position⟩

/-- **A walk comes to a result**: to the return of a phrase that was read, with `nesting`
parentheses open and the calls `frames` waiting, or to a failure. -/
def ComesTo (tokens : List Token) (walk : Walk) (phrase : Phrase) (nesting : Nat)
    (frames : List Frame) : Except Malformed Parsed → Prop
  | .ok parsed =>
    parsed.cursor = cursorAt tokens parsed.cursor.position ∧
      Steps tokens walk
        ⟨.returned phrase parsed.formula parsed.depth, parsed.cursor.position, nesting, frames⟩
  | .error fault => ∃ last, Steps tokens walk last ∧ Walk.step tokens last = .failed fault

variable {tokens : List Token} {walk later : Walk} {phrase phrase' : Phrase}
  {position nesting nesting' : Nat} {frames frames' : List Frame}

theorem ComesTo.of_failed {fault : Malformed} (h : Walk.step tokens walk = .failed fault) :
    ComesTo tokens walk phrase nesting frames (.error fault) :=
  ⟨walk, .refl, h⟩

theorem ComesTo.of_returned {parsed : Parsed}
    (h : parsed.cursor = cursorAt tokens parsed.cursor.position) :
    ComesTo tokens
      ⟨.returned phrase parsed.formula parsed.depth, parsed.cursor.position, nesting, frames⟩
      phrase nesting frames (.ok parsed) :=
  ⟨h, .refl⟩

theorem ComesTo.head {result : Except Malformed Parsed} (h : Walk.step tokens walk = .going later)
    (hlater : ComesTo tokens later phrase nesting frames result) :
    ComesTo tokens walk phrase nesting frames result := by
  cases result with
  | ok parsed => exact ⟨hlater.1, .head h hlater.2⟩
  | error fault =>
    obtain ⟨last, hlast, hfailed⟩ := hlater
    exact ⟨last, .head h hlast, hfailed⟩

/-- **A walk goes on behind the return of a call** with what was read. -/
theorem ComesTo.andThen {result : Except Malformed Parsed}
    {goOn : Parsed → Except Malformed Parsed}
    (h : ComesTo tokens walk phrase nesting frames result)
    (hgoOn : ∀ parsed, result = .ok parsed →
      parsed.cursor = cursorAt tokens parsed.cursor.position →
      ComesTo tokens
        ⟨.returned phrase parsed.formula parsed.depth, parsed.cursor.position, nesting, frames⟩
        phrase' nesting' frames' (goOn parsed)) :
    ComesTo tokens walk phrase' nesting' frames' (result >>= goOn) := by
  cases result with
  | error fault => exact h
  | ok parsed =>
    obtain ⟨hcursor, hsteps⟩ := h
    have hlater := hgoOn parsed rfl hcursor
    show ComesTo tokens walk phrase' nesting' frames' (goOn parsed)
    generalize goOn parsed = final at hlater ⊢
    cases final with
    | ok final => exact ⟨hlater.1, hsteps.trans hlater.2⟩
    | error fault =>
      obtain ⟨last, hlast, hfailed⟩ := hlater
      exact ⟨last, hsteps.trans hlast, hfailed⟩

/-! ## Tokens at a position -/

theorem drop_of_getElem? {t : Token} (h : tokens[position]? = some t) :
    tokens.drop position = t :: tokens.drop (position + 1) := by
  obtain ⟨hlt, rfl⟩ := List.getElem?_eq_some_iff.mp h
  exact List.drop_eq_getElem_cons hlt

theorem drop_of_getElem?_none (h : tokens[position]? = none) : tokens.drop position = [] :=
  List.drop_eq_nil_of_le (List.getElem?_eq_none_iff.mp h)

theorem skipClosing_cursorAt (tokens : List Token) (position : Nat) :
    (cursorAt tokens position).skipClosing = cursorAt tokens (skipAt tokens position) := by
  unfold skipAt cursorAt
  split
  · rename_i hlt
    rw [List.drop_eq_getElem_cons hlt]
    rfl
  · rename_i hge
    rw [List.drop_eq_nil_of_le (Nat.le_of_not_lt hge)]
    rfl

/-! ## The steps agree with the functions -/

/-- A chain goes on behind a connective with what comes there. -/
theorem chain_joint (next : Cursor → Except Malformed Parsed) (joints : Nat) {left : Parsed}
    {t : Token} {rest : List Token} {op : Connective} (hrest : left.cursor.rest = t :: rest)
    (hop : t.connective? = some op) :
    chain next joints left = next ⟨left.cursor.position + 1, rest⟩ >>= fun right =>
      if depthLimit < max left.depth right.depth + 1 then .error .tooDeep
      else
        match joints with
        | 0 => .error .tooDeep
        | joints + 1 =>
          chain next joints
            ⟨.join op left.formula right.formula, max left.depth right.depth + 1,
              right.cursor⟩ := by
  rw [chain, hrest]
  dsimp only
  generalize t.connective? = found at hop ⊢
  subst hop
  rfl

/-- **The loop of an expression comes to what its chain returns.** There are always joints
left where the chain is not too deep. -/
theorem comesTo_chain {next : Cursor → Except Malformed Parsed}
    (hnext : ∀ position frames, ComesTo tokens ⟨.call .term, position, nesting, frames⟩ .term
      nesting frames (next (cursorAt tokens position)))
    {joints : Nat} {left : Parsed} (hcursor : left.cursor = cursorAt tokens left.cursor.position)
    (hjoints : depthLimit < joints + left.depth) (frames : List Frame) :
    ComesTo tokens ⟨.loop left.formula left.depth, left.cursor.position, nesting, frames⟩
      .expression nesting frames (chain next joints left) := by
  induction joints using Nat.strongRecOn generalizing left with
  | _ joints ih =>
  have hrest : left.cursor.rest = tokens.drop left.cursor.position := congrArg Cursor.rest hcursor
  cases hop : tokens[left.cursor.position]?.bind Token.connective? with
  | none =>
    have hend : NoJoint left.cursor.rest := by
      intro t rest ht
      have ht : tokens[left.cursor.position]? = some t := by
        rw [← List.head?_drop, ← hrest, ht, List.head?_cons]
      rw [ht] at hop
      exact hop
    rw [chain_of_noJoint next joints hend]
    exact .head (by rw [Walk.step, hop]) (.of_returned hcursor)
  | some op =>
    obtain ⟨t, ht, hconnective⟩ := Option.bind_eq_some_iff.mp hop
    rw [chain_joint next joints (hrest.trans (drop_of_getElem? ht)) hconnective]
    have hterm := hnext (left.cursor.position + 1) (.joint left.formula left.depth op :: frames)
    refine .head (by rw [Walk.step, hop]) (hterm.andThen fun right _ hright => ?_)
    by_cases hdepth : depthLimit < max left.depth right.depth + 1
    · rw [if_pos hdepth]
      exact .of_failed (by rw [Walk.step, if_pos hdepth])
    · rw [if_neg hdepth]
      cases joints with
      | zero => omega
      | succ more =>
        let joined : Parsed :=
          ⟨.join op left.formula right.formula, max left.depth right.depth + 1, right.cursor⟩
        have hmore : depthLimit < more + joined.depth := by
          show depthLimit < more + (max left.depth right.depth + 1)
          omega
        exact .head (by rw [Walk.step, if_neg hdepth])
          (ih more (Nat.lt_succ_self more) (show joined.cursor = _ from hright) hmore)

/-- An expression comes to what it returns, if its terms do. -/
theorem comesTo_expression_of_term {budget : Nat} (hbudget : nesting + budget = depthLimit)
    (hterm : ∀ position frames, ComesTo tokens ⟨.call .term, position, nesting, frames⟩ .term
      nesting frames (term budget (cursorAt tokens position)))
    (position : Nat) (frames : List Frame) :
    ComesTo tokens ⟨.call .expression, position, nesting, frames⟩ .expression nesting frames
      (expression budget (cursorAt tokens position)) := by
  refine .head rfl ((hterm position (.first :: frames)).andThen fun first hfirst hcursor => ?_)
  have hdepth : depthLimit < depthLimit + first.depth := by
    rw [(justified_term hbudget hfirst).depth_eq]
    exact Nat.lt_add_of_pos_right (Formula.depth_pos _)
  exact .head rfl (comesTo_chain hterm hcursor hdepth frames)

/-- A condition comes to what is read behind its field. -/
theorem comesTo_condition {field : String} (h : tokens[position]? = some (.identifier field))
    (nesting : Nat) (frames : List Frame) :
    ComesTo tokens ⟨.call .term, position, nesting, frames⟩ .term nesting frames
      (conditionAfter field (cursorAt tokens (position + 1))) := by
  have hstep : Walk.step tokens ⟨.call .term, position, nesting, frames⟩
      = match conditionAfter field (cursorAt tokens (position + 1)) with
        | .ok parsed =>
          .going ⟨.returned .term parsed.formula parsed.depth, parsed.cursor.position, nesting,
            frames⟩
        | .error fault => .failed fault := by
    rw [Walk.step, stepTerm, h]
    rfl
  cases hread : conditionAfter field (cursorAt tokens (position + 1)) with
  | error fault => exact .of_failed (by rw [hstep, hread])
  | ok parsed =>
    obtain ⟨comparator, t, literal, rest, hrest, -, rfl⟩ := conditionAfter_eq_ok_iff.mp hread
    refine .head (by rw [hstep, hread]) (.of_returned ?_)
    have hdrop : tokens.drop (position + 1) = .comparator comparator :: t :: rest := hrest
    have hbehind : rest = tokens.drop (position + 1 + 2) := by
      rw [← List.drop_drop, hdrop]
      rfl
    rw [hbehind]
    rfl

/-- A term in parentheses comes to what it returns, if the expression inside does. -/
theorem comesTo_parentheses {less : Nat} (h : tokens[position]? = some .leftParen)
    (hnesting : nesting < depthLimit)
    (hinner : ComesTo tokens ⟨.call .expression, position + 1, nesting + 1, .parentheses :: frames⟩
      .expression (nesting + 1) (.parentheses :: frames)
      (expression less (cursorAt tokens (position + 1)))) :
    ComesTo tokens ⟨.call .term, position, nesting, frames⟩ .term nesting frames
      (term (less + 1) (cursorAt tokens position)) := by
  have hrest : (cursorAt tokens position).rest = .leftParen :: tokens.drop (position + 1) :=
    drop_of_getElem? h
  have hstep : Walk.step tokens ⟨.call .term, position, nesting, frames⟩
      = .going ⟨.call .expression, position + 1, nesting + 1, .parentheses :: frames⟩ := by
    rw [Walk.step, stepTerm, h]
    exact if_neg (by omega)
  rw [term_leftParen less hrest]
  show ComesTo tokens _ .term nesting frames
    (Parsed.closed <$> expression less (cursorAt tokens (position + 1)))
  rw [map_eq_pure_bind]
  refine .head hstep (hinner.andThen fun inner _ hcursor => ?_)
  -- the token behind the expression is taken for the closing one, if there is one
  have hclosed : inner.cursor.skipClosing
      = cursorAt tokens (skipAt tokens inner.cursor.position) :=
    (congrArg Cursor.skipClosing hcursor).trans (skipClosing_cursorAt tokens _)
  show ComesTo tokens _ .term nesting frames
    (.ok ⟨inner.formula, inner.depth, inner.cursor.skipClosing⟩)
  rw [hclosed]
  exact .head rfl (.of_returned rfl)

/-- **A call of a term comes to what `term` returns**, where the parentheses that are open
and those that may still be opened make up the limit. -/
theorem comesTo_term {budget : Nat} (hbudget : nesting + budget = depthLimit) (position : Nat)
    (frames : List Frame) :
    ComesTo tokens ⟨.call .term, position, nesting, frames⟩ .term nesting frames
      (term budget (cursorAt tokens position)) := by
  -- on the budget: inside of parentheses one more is open and one less may be opened
  induction budget using Nat.strongRecOn generalizing nesting position frames with
  | _ budget ih =>
  cases ht : tokens[position]? with
  | none =>
    have hrest : (cursorAt tokens position).rest = [] := drop_of_getElem?_none ht
    rw [term, hrest]
    exact .of_failed (by rw [Walk.step, stepTerm, ht])
  | some t =>
    have hrest : (cursorAt tokens position).rest = t :: tokens.drop (position + 1) :=
      drop_of_getElem? ht
    cases t with
    | identifier field =>
      rw [term_identifier budget hrest]
      exact comesTo_condition ht nesting frames
    | leftParen =>
      cases budget with
      | zero =>
        rw [term, hrest]
        exact .of_failed (by rw [Walk.step, stepTerm, ht]; exact if_pos (by omega))
      | succ less =>
        have hless : nesting + 1 + less = depthLimit := by omega
        exact comesTo_parentheses ht (by omega)
          (comesTo_expression_of_term hless (ih less (Nat.lt_succ_self less) hless) _ _)
    | _ =>
      rw [term, hrest]
      exact .of_failed (by rw [Walk.step, stepTerm, ht]; rfl)

/-- **A call of an expression comes to what `expression` returns**, where the parentheses that
are open and those that may still be opened make up the limit. -/
theorem comesTo_expression {budget : Nat} (hbudget : nesting + budget = depthLimit)
    (position : Nat) (frames : List Frame) :
    ComesTo tokens ⟨.call .expression, position, nesting, frames⟩ .expression nesting frames
      (expression budget (cursorAt tokens position)) :=
  comesTo_expression_of_term hbudget (comesTo_term hbudget) position frames

/-- The function that reads a phrase. -/
def readPhrase : Phrase → (budget : Nat) → Cursor → Except Malformed Parsed
  | .term => term
  | .expression => expression

/-- **A call comes to what the function for its phrase returns.** -/
theorem comesTo_readPhrase {budget : Nat} (hbudget : nesting + budget = depthLimit)
    (phrase : Phrase) (position : Nat) (frames : List Frame) :
    ComesTo tokens ⟨.call phrase, position, nesting, frames⟩ phrase nesting frames
      (readPhrase phrase budget (cursorAt tokens position)) :=
  match phrase with
  | .term => comesTo_term hbudget position frames
  | .expression => comesTo_expression hbudget position frames

end Rulebook
