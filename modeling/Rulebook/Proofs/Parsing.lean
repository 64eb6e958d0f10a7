import Rulebook.Proofs.Grammar

/-!
# Reading tokens is the grammar

`parseTokens` walks along a row of tokens with a cursor, counts the
parentheses it may still open, keeps the depth of what it has read, and stops
at the first thing that is wrong. The grammar of `Rulebook.Proofs.Grammar`
knows none of this. `parseTokens_eq_ok_iff_derives` says that the two agree on
every row of tokens, also on those that no text spells: what is read is what
the row derives, a row that derives nothing is refused, and no row derives two
formulas.

Each reading function gets one lemma that says what it has read when it
succeeds (`conditionAfter_eq_ok_iff`, `term_cases`, `chain_cases`). Soundness
is an induction on the parentheses that may still be opened and, inside, on
the joints of a chain; completeness is an induction on the derivation, where a
chain that has been read so far is a `chain` that still has joints to spare.
-/

namespace Rulebook

/-! ## Texts without their quotes -/

theorem toList_quoted (body : String) :
    ("'" ++ body ++ "'").toList = '\'' :: (body.toList ++ ['\'']) := by
  rw [String.toList_append, String.toList_append]
  rfl

/-- A text between two quotes loses them. -/
theorem unquoted_quoted (body : String) : unquoted ("'" ++ body ++ "'") = body := by
  unfold unquoted
  rw [toList_quoted]
  simp

/-- What does not stand between two quotes is taken as it is. -/
theorem unquoted_of_ne {raw : String} (h : ∀ body, raw ≠ "'" ++ body ++ "'") :
    unquoted raw = raw := by
  unfold unquoted
  split
  · rename_i body hraw
    split
    · rename_i text hbody
      refine absurd ?_ (h (String.ofList text.reverse))
      rw [← String.toList_inj, toList_quoted, hraw, String.toList_ofList,
        List.reverse_eq_iff.mp hbody, List.reverse_cons]
    · rfl
  · rfl

/-- A quoted text stands for what is left of it without its quotes. -/
theorem literalToken_quotedText_iff {raw : String} {v : Value} :
    LiteralToken (.quotedText raw) v ↔ v = .text (unquoted raw) := by
  constructor
  · intro h
    cases h with
    | stripped body => rw [unquoted_quoted]
    | kept _ h => rw [unquoted_of_ne h]
  · rintro rfl
    by_cases h : ∃ body, raw = "'" ++ body ++ "'"
    · obtain ⟨body, rfl⟩ := h
      rw [unquoted_quoted]
      exact .stripped body
    · have hne : ∀ body, raw ≠ "'" ++ body ++ "'" := fun body hraw => h ⟨body, hraw⟩
      rw [unquoted_of_ne hne]
      exact .kept raw hne

/-! ## Conditions -/

/-- **What is read behind a field**: a comparator and a token that stands for
a value. -/
theorem conditionAfter_eq_ok_iff {field : String} {cursor : Cursor} {parsed : Parsed} :
    conditionAfter field cursor = .ok parsed ↔
      ∃ comparator t literal rest, cursor.rest = .comparator comparator :: t :: rest ∧
        LiteralToken t literal ∧
        parsed = ⟨.condition ⟨field, comparator, literal⟩, 1, ⟨cursor.position + 2, rest⟩⟩ := by
  constructor
  · intro h
    unfold conditionAfter at h
    split at h
    · rename_i comparator _ hcursor
      split at h
      · rename_i raw rest
        cases h
        exact ⟨comparator, _, _, rest, hcursor, literalToken_quotedText_iff.mpr rfl, rfl⟩
      · rename_i x rest
        split at h
        · rename_i hx
          cases h
          exact ⟨comparator, _, _, rest, hcursor, .number x hx, rfl⟩
        · cases h
      · cases h
      · cases h
    · cases h
    · cases h
  · rintro ⟨comparator, t, literal, rest, hcursor, ht, rfl⟩
    unfold conditionAfter
    rw [hcursor]
    cases ht with
    | stripped body => dsimp only; rw [unquoted_quoted]
    | kept raw h => dsimp only; rw [unquoted_of_ne h]
    | number x h => dsimp only; rw [if_pos h]

/-! ## Chains -/

/-- Whether a row of tokens goes on with no connective. -/
def NoJoint (tokens : List Token) : Prop :=
  ∀ t rest, tokens = t :: rest → t.connective? = none

theorem noJoint_nil : NoJoint [] := by
  intro t rest h
  cases h

theorem Closing.noJoint {tokens rest : List Token} (h : Closing tokens rest) : NoJoint tokens := by
  cases h with
  | absent => exact noJoint_nil
  | token hand hor =>
    rintro t rest' h
    cases h
    exact Token.connective?_eq_none_iff.mpr ⟨hand, hor⟩

/-- A chain ends where no connective follows. -/
theorem chain_of_noJoint (next : Cursor → Except Malformed Parsed) (joints : Nat) {left : Parsed}
    (h : NoJoint left.cursor.rest) : chain next joints left = .ok left := by
  unfold chain
  split
  · rfl
  · rename_i t rest hrest
    rw [h t rest hrest]

/-- A chain goes on with the term behind a connective, as long as the formula
does not get too deep. -/
theorem chain_of_joint {next : Cursor → Except Malformed Parsed} {joints : Nat}
    {left right : Parsed} {t : Token} {rest : List Token} {op : Connective}
    (hrest : left.cursor.rest = t :: rest) (hop : t.connective? = some op)
    (hright : next ⟨left.cursor.position + 1, rest⟩ = .ok right)
    (hdepth : max left.depth right.depth + 1 ≤ depthLimit) :
    chain next (joints + 1) left
      = chain next joints
          ⟨.join op left.formula right.formula, max left.depth right.depth + 1, right.cursor⟩ := by
  rw [chain, hrest]
  dsimp only
  rw [hop]
  dsimp only
  rw [hright]
  show (if depthLimit < max left.depth right.depth + 1 then _ else _) = _
  rw [if_neg (Nat.not_lt.mpr hdepth)]

/-- **What a chain has read**: nothing more, or one more term and the rest of
the chain. -/
theorem chain_cases {next : Cursor → Except Malformed Parsed} {joints : Nat} {left parsed : Parsed}
    (h : chain next joints left = .ok parsed) :
    (NoJoint left.cursor.rest ∧ parsed = left) ∨
      ∃ t rest op right more, left.cursor.rest = t :: rest ∧ t.connective? = some op ∧
        next ⟨left.cursor.position + 1, rest⟩ = .ok right ∧
        max left.depth right.depth + 1 ≤ depthLimit ∧ joints = more + 1 ∧
        chain next more
          ⟨.join op left.formula right.formula, max left.depth right.depth + 1, right.cursor⟩
          = .ok parsed := by
  unfold chain at h
  split at h
  · rename_i hrest
    cases h
    exact .inl ⟨hrest ▸ noJoint_nil, rfl⟩
  · rename_i t rest hrest
    split at h
    · rename_i hop
      cases h
      refine .inl ⟨?_, rfl⟩
      intro t' rest' hrest'
      rw [hrest] at hrest'
      cases hrest'
      exact hop
    · rename_i op hop
      refine .inr ?_
      cases hright : next ⟨left.cursor.position + 1, rest⟩ with
      | error fault => rw [hright] at h; cases h
      | ok right =>
        rw [hright] at h
        simp only [bind, Except.bind] at h
        -- the depth is looked at before the joints that are left
        split at h
        · cases h
        · rename_i hdepth
          cases joints with
          | zero => cases h
          | succ more =>
            exact ⟨t, rest, op, right, more, hrest, hop, hright, Nat.not_lt.mp hdepth, rfl, h⟩

/-- Behind a chain no connective is left. -/
theorem noJoint_of_chain {next : Cursor → Except Malformed Parsed} {joints : Nat}
    {left parsed : Parsed} (h : chain next joints left = .ok parsed) :
    NoJoint parsed.cursor.rest := by
  induction joints generalizing left with
  | zero =>
    obtain ⟨hend, rfl⟩ | ⟨t, rest, op, right, more, -, -, -, -, hjoints, -⟩ := chain_cases h
    · exact hend
    · cases hjoints
  | succ more ih =>
    obtain ⟨hend, rfl⟩ | ⟨t, rest, op, right, more', -, -, -, -, hjoints, h⟩ := chain_cases h
    · exact hend
    · cases hjoints
      exact ih h

/-! ## Terms -/

/-- The formula of a parenthesis, with the cursor behind what closes it. -/
def Parsed.closed (inner : Parsed) : Parsed := { inner with cursor := inner.cursor.skipClosing }

theorem Closing.skipClosing_rest {tokens rest : List Token} (h : Closing tokens rest)
    (position : Nat) : (Cursor.skipClosing ⟨position, tokens⟩).rest = rest := by
  cases h <;> rfl

/-- What stands where a parenthesis closes is what the grammar wants there. -/
theorem closing_skipClosing {cursor : Cursor} (h : NoJoint cursor.rest) :
    Closing cursor.rest cursor.skipClosing.rest := by
  obtain ⟨position, tokens⟩ := cursor
  cases tokens with
  | nil => exact .absent
  | cons t rest =>
    obtain ⟨hand, hor⟩ := Token.connective?_eq_none_iff.mp (h t rest rfl)
    exact .token hand hor

theorem term_leftParen (budget : Nat) {cursor : Cursor} {rest : List Token}
    (h : cursor.rest = .leftParen :: rest) :
    term (budget + 1) cursor
      = (expression budget ⟨cursor.position + 1, rest⟩).map Parsed.closed := by
  rw [term, h]
  unfold expression
  dsimp only
  cases term budget ⟨cursor.position + 1, rest⟩ with
  | error fault => rfl
  | ok first =>
    show (chain (term budget) depthLimit first >>= fun inner => .ok inner.closed)
      = (chain (term budget) depthLimit first).map Parsed.closed
    cases chain (term budget) depthLimit first <;> rfl

theorem term_identifier (budget : Nat) {cursor : Cursor} {field : String} {rest : List Token}
    (h : cursor.rest = .identifier field :: rest) :
    term budget cursor = conditionAfter field ⟨cursor.position + 1, rest⟩ := by
  rw [term, h]

/-- **What a term has read**: an expression in parentheses, for which one had
to be left in the budget, or a condition. -/
theorem term_cases {budget : Nat} {cursor : Cursor} {parsed : Parsed}
    (h : term budget cursor = .ok parsed) :
    (∃ rest less inner, cursor.rest = .leftParen :: rest ∧ budget = less + 1 ∧
      expression less ⟨cursor.position + 1, rest⟩ = .ok inner ∧ parsed = inner.closed) ∨
    ∃ field rest, cursor.rest = .identifier field :: rest ∧
      conditionAfter field ⟨cursor.position + 1, rest⟩ = .ok parsed := by
  cases hrest : cursor.rest with
  | nil => rw [term, hrest] at h; cases h
  | cons t rest =>
    cases t with
    | leftParen =>
      cases budget with
      | zero => rw [term, hrest] at h; cases h
      | succ less =>
        rw [term_leftParen less hrest] at h
        cases hinner : expression less ⟨cursor.position + 1, rest⟩ with
        | error fault => rw [hinner] at h; cases h
        | ok inner =>
          rw [hinner] at h
          cases h
          exact .inl ⟨rest, less, inner, rfl, rfl, hinner, rfl⟩
    | identifier field =>
      rw [term_identifier budget hrest] at h
      exact .inr ⟨field, rest, rfl, h⟩
    | _ => rw [term, hrest] at h; cases h

/-- **What an expression has read**: a term, and the chain behind it. -/
theorem expression_eq_ok_iff {budget : Nat} {cursor : Cursor} {parsed : Parsed} :
    expression budget cursor = .ok parsed ↔
      ∃ first, term budget cursor = .ok first ∧
        chain (term budget) depthLimit first = .ok parsed := by
  unfold expression
  cases term budget cursor with
  | error fault =>
    constructor
    · intro h
      cases h
    · rintro ⟨_, h, -⟩
      cases h
  | ok first =>
    constructor
    · intro h
      exact ⟨first, rfl, h⟩
    · rintro ⟨_, h, h'⟩
      cases h
      exact h'

/-! ## What is read is in the grammar -/

/-- **What was read is justified**: the tokens up to the cursor are a phrase
of the grammar for the formula, the depth that was counted is the depth of the
formula, and it is within the limit. -/
structure Parsed.Justified (phrase : Phrase) (opened : Nat) (tokens : List Token)
    (parsed : Parsed) : Prop where
  /-- The tokens are a phrase. -/
  reads : Reads phrase opened tokens parsed.formula parsed.cursor.rest
  /-- The depth is that of the formula. -/
  depth_eq : parsed.depth = parsed.formula.depth
  /-- The depth is within the limit. -/
  depth_le : parsed.depth ≤ depthLimit

variable {opened : Nat}

/-- A condition that was read is justified. -/
theorem justified_condition {field : String} {cursor : Cursor} {rest : List Token}
    {parsed : Parsed} (hcursor : cursor.rest = .identifier field :: rest)
    (h : conditionAfter field ⟨cursor.position + 1, rest⟩ = .ok parsed) :
    parsed.Justified .term opened cursor.rest := by
  obtain ⟨comparator, t, literal, rest', hrest, ht, rfl⟩ := conditionAfter_eq_ok_iff.mp h
  have hrest : rest = .comparator comparator :: t :: rest' := hrest
  refine ⟨?_, rfl, show 1 ≤ depthLimit by decide⟩
  rw [hcursor, hrest]
  exact .condition ht

/-- A chain of justified terms behind a justified beginning is justified. -/
theorem justified_chain {next : Cursor → Except Malformed Parsed}
    (hnext : ∀ {cursor parsed}, next cursor = .ok parsed →
      parsed.Justified .term opened cursor.rest)
    {tokens : List Token} {joints : Nat} {left parsed : Parsed}
    (hleft : left.Justified .expression opened tokens)
    (h : chain next joints left = .ok parsed) :
    parsed.Justified .expression opened tokens := by
  induction joints generalizing left with
  | zero =>
    obtain ⟨-, rfl⟩ | ⟨t, rest, op, right, more, -, -, -, -, hjoints, -⟩ := chain_cases h
    · exact hleft
    · cases hjoints
  | succ more ih =>
    obtain ⟨-, rfl⟩ | ⟨t, rest, op, right, more', hrest, hop, hright, hdepth, hjoints, h⟩ :=
      chain_cases h
    · exact hleft
    · cases hjoints
      have hterm := hnext hright
      refine ih ⟨.joined (hrest ▸ hleft.reads) hop hterm.reads, ?_, hdepth⟩ h
      show max left.depth right.depth + 1 = _
      rw [hleft.depth_eq, hterm.depth_eq, Formula.depth]

/-- **Soundness**: what a term reads is justified, where the parentheses that
are open and those that may still be opened make up the limit. -/
theorem justified_term {budget : Nat} {cursor : Cursor} {parsed : Parsed}
    (hbudget : opened + budget = depthLimit) (h : term budget cursor = .ok parsed) :
    parsed.Justified .term opened cursor.rest := by
  induction budget generalizing opened cursor parsed with
  | zero =>
    obtain ⟨_, _, _, -, hless, -⟩ | ⟨field, rest, hcursor, h⟩ := term_cases h
    · cases hless
    · exact justified_condition hcursor h
  | succ less ih =>
    obtain ⟨rest, _, inner, hcursor, hless, hinner, rfl⟩ | ⟨field, rest, hcursor, h⟩ :=
      term_cases h
    · cases hless
      obtain ⟨first, hfirst, hchain⟩ := expression_eq_ok_iff.mp hinner
      have hbudget' : (opened + 1) + less = depthLimit := by omega
      have hfirst := ih hbudget' hfirst
      have hinner := justified_chain (ih hbudget')
        ⟨.single hfirst.reads, hfirst.depth_eq, hfirst.depth_le⟩ hchain
      refine ⟨?_, hinner.depth_eq, hinner.depth_le⟩
      rw [hcursor]
      exact .parentheses (by omega) hinner.reads (closing_skipClosing (noJoint_of_chain hchain))
    · exact justified_condition hcursor h

/-! ## What is in the grammar is read -/

/-- **A phrase is read at a place**, with a budget: a term as a whole, and an
expression up to a point from which its chain may still go on. The chain has
joints to spare there, since each joint so far has added a level. -/
def ReadAt (budget : Nat) (tokens : List Token) (f : Formula) (rest : List Token) :
    Phrase → Prop
  | .term => ∀ position, ∃ position',
    term budget ⟨position, tokens⟩ = .ok ⟨f, f.depth, ⟨position', rest⟩⟩
  | .expression => ∀ position, ∃ position' joints, depthLimit < joints + f.depth ∧
    expression budget ⟨position, tokens⟩
      = chain (term budget) joints ⟨f, f.depth, ⟨position', rest⟩⟩

/-- An expression is read to its end if no connective follows it. -/
theorem ReadAt.expression_eq {budget : Nat} {tokens rest : List Token} {f : Formula}
    (h : ReadAt budget tokens f rest .expression) (hrest : NoJoint rest) (position : Nat) :
    ∃ position', expression budget ⟨position, tokens⟩
      = .ok ⟨f, f.depth, ⟨position', rest⟩⟩ := by
  obtain ⟨position', joints, -, hread⟩ := h position
  exact ⟨position', hread.trans (chain_of_noJoint _ _ hrest)⟩

/-- An expression followed by a connective and a term is read with them. -/
theorem ReadAt.joined {budget : Nat} {tokens middle rest : List Token} {t : Token}
    {op : Connective} {f g : Formula} (hleft : ReadAt budget tokens f (t :: middle) .expression)
    (hop : t.connective? = some op) (hright : ReadAt budget middle g rest .term)
    (hdepth : (Formula.join op f g).depth ≤ depthLimit) :
    ReadAt budget tokens (.join op f g) rest .expression := by
  intro position
  obtain ⟨p, joints, hjoints, hread⟩ := hleft position
  obtain ⟨p', hterm⟩ := hright (p + 1)
  have hlt := Formula.depth_left_lt op f g
  -- the chain so far is shallower than the limit, so a joint is left for this one
  obtain ⟨more, rfl⟩ : ∃ more, joints = more + 1 := ⟨joints - 1, by omega⟩
  refine ⟨p', more, by omega, hread.trans ?_⟩
  let left : Parsed := ⟨f, f.depth, ⟨p, t :: middle⟩⟩
  exact chain_of_joint (show left.cursor.rest = t :: middle from rfl) hop hterm hdepth

/-- **Completeness**: a phrase of the grammar is read, if its formula is within
the limit. -/
theorem readAt_of_reads {phrase : Phrase} {tokens rest : List Token} {f : Formula} {budget : Nat}
    (h : Reads phrase opened tokens f rest) (hbudget : opened + budget = depthLimit)
    (hdepth : f.depth ≤ depthLimit) : ReadAt budget tokens f rest phrase := by
  -- on the derivation: the parentheses that are open inside are one more, and the budget
  -- is one less
  induction h generalizing budget with
  | condition hliteral =>
    intro position
    refine ⟨position + 1 + 2, ?_⟩
    rw [term_identifier budget rfl]
    exact conditionAfter_eq_ok_iff.mpr ⟨_, _, _, _, rfl, hliteral, rfl⟩
  | parentheses hopened inner hclosing ih =>
    intro position
    obtain ⟨less, rfl⟩ : ∃ less, budget = less + 1 := ⟨budget - 1, by omega⟩
    have hinner : ReadAt less _ _ _ .expression := ih (by omega) hdepth
    obtain ⟨p, hread⟩ := hinner.expression_eq hclosing.noJoint (position + 1)
    rw [term_leftParen less rfl, hread, ← hclosing.skipClosing_rest p]
    exact ⟨_, rfl⟩
  | single first ih =>
    intro position
    obtain ⟨p, hread⟩ := ih hbudget hdepth position
    refine ⟨p, depthLimit, Nat.lt_add_of_pos_right (Formula.depth_pos _), ?_⟩
    rw [expression, hread]
    rfl
  | joined left hop right ihleft ihright =>
    have hl := Nat.le_trans (Nat.le_of_lt (Formula.depth_left_lt _ _ _)) hdepth
    have hr := Nat.le_trans (Nat.le_of_lt (Formula.depth_right_lt _ _ _)) hdepth
    exact (ihleft hbudget hl).joined hop (ihright hbudget hr) hdepth

/-! ## Whole rows -/

/-- What is read of a whole row is what the row derives. -/
theorem derives_of_parseTokens {tokens : List Token} {f : Formula}
    (h : parseTokens tokens = .ok f) : Derives tokens f := by
  unfold parseTokens at h
  cases hparsed : expression depthLimit ⟨0, tokens⟩ with
  | error fault => rw [hparsed] at h; cases h
  | ok parsed =>
    rw [hparsed] at h
    obtain ⟨first, hfirst, hchain⟩ := expression_eq_ok_iff.mp hparsed
    have hfirst := justified_term (Nat.zero_add depthLimit) hfirst
    have hparsed := justified_chain (justified_term (Nat.zero_add depthLimit))
      ⟨.single hfirst.reads, hfirst.depth_eq, hfirst.depth_le⟩ hchain
    obtain ⟨g, depth, ⟨position, rest⟩⟩ := parsed
    cases rest with
    | nil =>
      cases h
      exact ⟨hparsed.reads, hparsed.depth_eq ▸ hparsed.depth_le⟩
    | cons t rest => cases h

/-- What a row derives is read. -/
theorem parseTokens_of_derives {tokens : List Token} {f : Formula} (h : Derives tokens f) :
    parseTokens tokens = .ok f := by
  obtain ⟨hreads, hdepth⟩ := h
  obtain ⟨p, hread⟩ :=
    (readAt_of_reads hreads (Nat.zero_add depthLimit) hdepth).expression_eq noJoint_nil 0
  rw [parseTokens, hread]
  rfl

/-- **Reading tokens is the grammar**, on every row of tokens: a formula is
read exactly if the row derives it, a row that derives none is refused, and no
row derives two. -/
theorem parseTokens_eq_ok_iff_derives (tokens : List Token) :
    (∀ f, parseTokens tokens = .ok f ↔ Derives tokens f) ∧
      ((∀ f, ¬ Derives tokens f) → ∃ fault, parseTokens tokens = .error fault) ∧
      ∀ f g, Derives tokens f → Derives tokens g → f = g := by
  refine ⟨fun f => ⟨derives_of_parseTokens, parseTokens_of_derives⟩, fun hnone => ?_,
    fun f g hf hg => ?_⟩
  · cases h : parseTokens tokens with
    | ok f => exact absurd (derives_of_parseTokens h) (hnone f)
    | error fault => exact ⟨fault, rfl⟩
  · have hfg : Except.ok f = Except.ok g :=
      (parseTokens_of_derives hf).symm.trans (parseTokens_of_derives hg)
    cases hfg
    rfl

/-- A parenthesis can be closed by the name of a field. -/
theorem parseTokens_closed_by_identifier :
    parseTokens [.leftParen, .identifier "a", .comparator .lt, .quotedText "'x'", .identifier "b"]
      = .ok (.condition ⟨"a", .lt, .text "x"⟩) := by
  have hliteral : LiteralToken (.quotedText "'x'") (.text "x") := .stripped "x"
  have hterm : Reads .expression 1
      [.identifier "a", .comparator .lt, .quotedText "'x'", .identifier "b"]
      (.condition ⟨"a", .lt, .text "x"⟩) [.identifier "b"] := .single (.condition hliteral)
  refine ((parseTokens_eq_ok_iff_derives _).1 _).mpr ⟨.single ?_, by decide⟩
  exact .parentheses (by decide) hterm (.token (by decide) (by decide))

end Rulebook
