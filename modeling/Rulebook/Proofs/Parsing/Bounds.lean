import Mathlib.Order.WellFounded
import Rulebook.Proofs.Combination
import Rulebook.Proofs.Parsing.Calls

/-!
# What reading needs

However long a row of tokens is, reading it ends, and while it goes on no more than
`depthLimit + 1` expressions are being read inside one another, the cursor stays within the
row, and no formula deeper than `depthLimit` is held by any call. What a call returns has
taken three tokens at least, comes with its own depth, and finds the parentheses counted as
they were when the call began. All of this holds of a call at any place, with any number of
parentheses open before it.

These facts need each other: a count of the calls follows from the count of the parentheses
only because the calls that wait take turns, an expression for a term and a term for an
expression. They are the parts of one invariant, `Walk.Sound`, which every step keeps
(`Walk.Sound.step`), and the steps end since each makes a number smaller (`Walk.size`).
-/

namespace Rulebook

/-! ## What a step does -/

/-- **The steps that lead on**, by what they do. -/
inductive Leads (tokens : List Token) : Walk → Walk → Prop where
  /-- An expression calls for its first term. -/
  | enter (position nesting : Nat) (frames : List Frame) :
    Leads tokens ⟨.call .expression, position, nesting, frames⟩
      ⟨.call .term, position, nesting, .first :: frames⟩
  /-- A term opens a parenthesis. -/
  | opening {position nesting : Nat} (frames : List Frame) (hposition : position < tokens.length)
      (hnesting : nesting < depthLimit) :
    Leads tokens ⟨.call .term, position, nesting, frames⟩
      ⟨.call .expression, position + 1, nesting + 1, .parentheses :: frames⟩
  /-- A term is a condition, of three tokens. -/
  | condition {position : Nat} (nesting : Nat) (frames : List Frame) (c : Condition)
      (hposition : position + 3 ≤ tokens.length) :
    Leads tokens ⟨.call .term, position, nesting, frames⟩
      ⟨.returned .term (.condition c) 1, position + 3, nesting, frames⟩
  /-- An expression goes on behind a connective. -/
  | goOn {position : Nat} (nesting : Nat) (frames : List Frame) (left : Formula) (depth : Nat)
      (op : Connective) (hposition : position < tokens.length) :
    Leads tokens ⟨.loop left depth, position, nesting, frames⟩
      ⟨.call .term, position + 1, nesting, .joint left depth op :: frames⟩
  /-- An expression ends where no connective follows. -/
  | leave (position nesting : Nat) (frames : List Frame) (left : Formula) (depth : Nat) :
    Leads tokens ⟨.loop left depth, position, nesting, frames⟩
      ⟨.returned .expression left depth, position, nesting, frames⟩
  /-- The first term of an expression has been read. -/
  | first (phrase : Phrase) (position nesting : Nat) (frames : List Frame) (f : Formula)
      (depth : Nat) :
    Leads tokens ⟨.returned phrase f depth, position, nesting, .first :: frames⟩
      ⟨.loop f depth, position, nesting, frames⟩
  /-- A term behind a connective has been read. -/
  | joined (phrase : Phrase) (position nesting : Nat) (frames : List Frame) {left right : Formula}
      {depth rightDepth : Nat} (op : Connective) (hdepth : max depth rightDepth + 1 ≤ depthLimit) :
    Leads tokens
      ⟨.returned phrase right rightDepth, position, nesting, .joint left depth op :: frames⟩
      ⟨.loop (.join op left right) (max depth rightDepth + 1), position, nesting, frames⟩
  /-- A parenthesis is closed. -/
  | closing (phrase : Phrase) (position nesting : Nat) (frames : List Frame) (f : Formula)
      (depth : Nat) :
    Leads tokens ⟨.returned phrase f depth, position, nesting, .parentheses :: frames⟩
      ⟨.returned .term f depth, skipAt tokens position, nesting - 1, frames⟩

variable {tokens : List Token} {walk later : Walk}

theorem leads_of_stepTerm {position nesting : Nat} {frames : List Frame}
    (h : stepTerm tokens position nesting frames = .going later) :
    Leads tokens ⟨.call .term, position, nesting, frames⟩ later := by
  unfold stepTerm at h
  split at h
  · rename_i ht
    split at h
    · cases h
    · rename_i hnesting
      cases h
      exact .opening frames (List.getElem?_eq_some_iff.mp ht).1 (by omega)
  · split at h
    · rename_i parsed hread
      obtain ⟨comparator, t, literal, rest, hrest, -, rfl⟩ := conditionAfter_eq_ok_iff.mp hread
      have hdrop : tokens.drop (position + 1) = .comparator comparator :: t :: rest := hrest
      have hlength : tokens.length - (position + 1) = rest.length + 1 + 1 := by
        rw [← List.length_drop, hdrop, List.length_cons, List.length_cons]
      cases h
      exact .condition nesting frames _ (by omega)
    · cases h
  · cases h
  · cases h

/-- **What a step can do**, if reading goes on. -/
theorem leads_of_step (h : Walk.step tokens walk = .going later) : Leads tokens walk later := by
  unfold Walk.step at h
  split at h
  · cases h
    exact .enter ..
  · exact leads_of_stepTerm h
  · split at h
    · rename_i hop
      obtain ⟨t, ht, -⟩ := Option.bind_eq_some_iff.mp hop
      cases h
      exact .goOn _ _ _ _ _ (List.getElem?_eq_some_iff.mp ht).1
    · cases h
      exact .leave ..
  · cases h
    exact .first ..
  · split at h
    · cases h
    · rename_i hdepth
      cases h
      exact .joined _ _ _ _ _ (Nat.not_lt.mp hdepth)
  · cases h
    exact .closing ..
  · cases h

/-! ## Reading ends -/

/-- How much the next thing to be done counts for the size. -/
def Control.rank : Control → Nat
  | .call .expression => 3
  | .call .term => 0
  | .loop _ _ => 1
  | .returned _ _ _ => 0

/-- **The size of a walk**: what is left of the tokens counts most, and then the calls that
wait. -/
def Walk.size (tokens : List Token) (walk : Walk) : Nat :=
  6 * (tokens.length - walk.position) + 2 * walk.frames.length + walk.control.rank

theorem le_skipAt (tokens : List Token) (position : Nat) : position ≤ skipAt tokens position := by
  unfold skipAt
  split <;> omega

theorem skipAt_le {position : Nat} (h : position ≤ tokens.length) :
    skipAt tokens position ≤ tokens.length := by
  unfold skipAt
  split <;> omega

/-- Each step makes the size smaller. -/
theorem Leads.size_lt (h : Leads tokens walk later) : later.size tokens < walk.size tokens := by
  cases h with
  | closing phrase position nesting frames f depth =>
    have := le_skipAt tokens position
    simp only [Walk.size, Control.rank, List.length_cons]
    omega
  | _ =>
    simp only [Walk.size, Control.rank, List.length_cons]
    omega

/-- **Reading ends**, wherever it begins. -/
theorem wellFounded_step (tokens : List Token) :
    WellFounded fun later earlier => Walk.step tokens earlier = .going later :=
  Subrelation.wf (fun h => (leads_of_step h).size_lt)
    (InvImage.wf (Walk.size tokens) Nat.lt_wfRel.wf)

/-! ## The calls that wait -/

/-- The phrase that is being read by a call that waits. -/
def Frame.phrase : Frame → Phrase
  | .first => .expression
  | .joint _ _ _ => .expression
  | .parentheses => .term

/-- The phrase that a call waits for. -/
def Frame.awaited : Frame → Phrase
  | .first => .term
  | .joint _ _ _ => .term
  | .parentheses => .expression

/-- The phrase that is being read, or has just been read, when something is done. -/
def Control.phrase : Control → Phrase
  | .call phrase => phrase
  | .loop _ _ => .expression
  | .returned phrase _ _ => phrase

/-- **Calls that wait for a phrase**: the last one waits for it, and each for the phrase that
the one above it reads. -/
def Awaiting : Phrase → List Frame → Prop
  | _, [] => True
  | phrase, frame :: frames => frame.awaited = phrase ∧ Awaiting frame.phrase frames

/-- The expressions among calls that wait. -/
def expressionsIn (frames : List Frame) : Nat := frames.countP (·.phrase = .expression)

/-- The parentheses that calls have opened. -/
def openedIn (frames : List Frame) : Nat := frames.countP (·.phrase = .term)

/-- **The expressions that are being read** inside one another. -/
def Walk.levels (walk : Walk) : Nat :=
  expressionsIn walk.frames + if walk.control.phrase = .expression then 1 else 0

/-- **Between two expressions a parenthesis was opened.** -/
theorem Awaiting.expressionsIn_le {phrase : Phrase} {frames : List Frame}
    (h : Awaiting phrase frames) :
    expressionsIn frames + (if phrase = .expression then 1 else 0) ≤ openedIn frames + 1 := by
  induction frames generalizing phrase with
  | nil => cases phrase <;> decide
  | cons frame frames ih =>
    obtain ⟨rfl, h⟩ := h
    have hbelow := ih h
    unfold expressionsIn openedIn at hbelow ⊢
    rw [List.countP_cons, List.countP_cons]
    cases frame <;> simp [Frame.awaited, Frame.phrase] at hbelow ⊢ <;> omega

/-! ## What every step keeps -/

/-- The tokens that have been taken at least, by what is done next. -/
def Control.taken : Control → Nat
  | .call _ => 0
  | .loop _ _ => 3
  | .returned _ _ _ => 3

/-- The formula, with its depth as it was counted, of what is done next. -/
def Control.held : Control → List (Formula × Nat)
  | .call _ => []
  | .loop left depth => [(left, depth)]
  | .returned _ f depth => [(f, depth)]

/-- The formula, with its depth as it was counted, that a call has while it waits. -/
def Frame.held : Frame → List (Formula × Nat)
  | .joint left depth _ => [(left, depth)]
  | _ => []

/-- **All formulas that there are** at a place in the course of reading, each with its depth
as it was counted. -/
def Walk.held (walk : Walk) : List (Formula × Nat) :=
  walk.control.held ++ walk.frames.flatMap Frame.held

/-- **A walk is sound** if its call began at the position `start` with `opened` parentheses
open. -/
structure Walk.Sound (tokens : List Token) (start opened : Nat) (walk : Walk) : Prop where
  /-- The tokens that have been taken lie behind the start. -/
  taken_le : start + walk.control.taken ≤ walk.position
  /-- The cursor is within the row. -/
  position_le : walk.position ≤ tokens.length
  /-- The parentheses that are open were open before, or a call that waits has opened them. -/
  nesting_eq : walk.nesting = opened + openedIn walk.frames
  /-- The parentheses that are open are within the limit. -/
  nesting_le : walk.nesting ≤ depthLimit
  /-- The calls that wait take turns. -/
  awaiting : Awaiting walk.control.phrase walk.frames
  /-- Depths are counted right and are within the limit. -/
  held : ∀ counted ∈ walk.held, counted.2 = counted.1.depth ∧ counted.2 ≤ depthLimit

variable {start opened : Nat}

/-- A step moves the cursor forwards, and not out of the row. -/
theorem Leads.position (h : Leads tokens walk later)
    (htaken : start + walk.control.taken ≤ walk.position)
    (hposition : walk.position ≤ tokens.length) :
    start + later.control.taken ≤ later.position ∧ later.position ≤ tokens.length := by
  cases h with
  | closing phrase position nesting frames f depth =>
    have := le_skipAt tokens position
    exact ⟨Nat.le_trans htaken this, skipAt_le hposition⟩
  | _ =>
    simp only [Control.taken] at *
    omega

/-- A step counts the parentheses as the calls that wait have opened them. -/
theorem Leads.nesting (h : Leads tokens walk later)
    (hnesting : walk.nesting = opened + openedIn walk.frames) (hle : walk.nesting ≤ depthLimit) :
    later.nesting = opened + openedIn later.frames ∧ later.nesting ≤ depthLimit := by
  cases h <;> simp [openedIn, Frame.phrase] at * <;> omega

/-- A step keeps the turns of the calls that wait. -/
theorem Leads.awaiting (h : Leads tokens walk later)
    (hawaiting : Awaiting walk.control.phrase walk.frames) :
    Awaiting later.control.phrase later.frames := by
  cases h with
  | enter => exact ⟨rfl, hawaiting⟩
  | opening => exact ⟨rfl, hawaiting⟩
  | condition => exact hawaiting
  | goOn => exact ⟨rfl, hawaiting⟩
  | leave => exact hawaiting
  | first => exact hawaiting.2
  | joined => exact hawaiting.2
  | closing => exact hawaiting.2

/-- A step counts the depth of each formula right. -/
theorem Leads.held (h : Leads tokens walk later)
    (hheld : ∀ counted ∈ walk.held, counted.2 = counted.1.depth ∧ counted.2 ≤ depthLimit) :
    ∀ counted ∈ later.held, counted.2 = counted.1.depth ∧ counted.2 ≤ depthLimit := by
  cases h with
  | condition nesting frames c =>
    intro counted hmem
    obtain rfl | hmem := List.mem_cons.mp hmem
    · exact ⟨rfl, show 1 ≤ depthLimit by decide⟩
    · exact hheld counted hmem
  | @joined phrase position nesting frames left right depth rightDepth op hdepth =>
    intro counted hmem
    obtain rfl | hmem := List.mem_cons.mp hmem
    · have hright : rightDepth = right.depth := (hheld _ List.mem_cons_self).1
      have hleft : depth = left.depth :=
        (hheld (left, depth) (List.mem_cons_of_mem _ List.mem_cons_self)).1
      refine ⟨?_, hdepth⟩
      show max depth rightDepth + 1 = max left.depth right.depth + 1
      rw [hleft, hright]
    · exact hheld counted (List.mem_cons_of_mem _ (List.mem_cons_of_mem _ hmem))
  | _ => exact hheld

/-- **Every step keeps a walk sound.** -/
theorem Walk.Sound.step (h : walk.Sound tokens start opened) (hleads : Leads tokens walk later) :
    later.Sound tokens start opened := by
  obtain ⟨htaken, hposition⟩ := hleads.position h.taken_le h.position_le
  obtain ⟨hnesting, hle⟩ := hleads.nesting h.nesting_eq h.nesting_le
  exact ⟨htaken, hposition, hnesting, hle, hleads.awaiting h.awaiting, hleads.held h.held⟩

/-- **All steps keep a walk sound.** -/
theorem Walk.Sound.steps (h : walk.Sound tokens start opened) (hsteps : Steps tokens walk later) :
    later.Sound tokens start opened := by
  induction hsteps with
  | refl => exact h
  | tail _ hstep ih => exact ih.step (leads_of_step hstep)

/-- The walk from a call within the row and the limit is sound. -/
theorem sound_called (phrase : Phrase) (hstart : start ≤ tokens.length)
    (hopened : opened ≤ depthLimit) :
    (Walk.called phrase start opened).Sound tokens start opened :=
  ⟨Nat.le_refl start, hstart, rfl, hopened, trivial, nofun⟩

/-- A sound walk has not more expressions inside one another than parentheses allow. -/
theorem Walk.Sound.levels_le (h : walk.Sound tokens start opened) :
    walk.levels + opened ≤ depthLimit + 1 := by
  have hlevels : walk.levels ≤ openedIn walk.frames + 1 := h.awaiting.expressionsIn_le
  have := h.nesting_eq
  have := h.nesting_le
  omega

/-- A call that returns on a sound walk has taken three tokens, and its depth is right. -/
theorem Walk.Sound.returned {phrase : Phrase} {f : Formula} {depth position nesting : Nat}
    (h : Walk.Sound tokens start opened ⟨.returned phrase f depth, position, nesting, []⟩) :
    start + 3 ≤ position ∧ position ≤ tokens.length ∧ nesting = opened ∧ depth = f.depth ∧
      depth ≤ depthLimit := by
  obtain ⟨hdepth, hle⟩ := h.held (f, depth) List.mem_cons_self
  exact ⟨h.taken_le, h.position_le, h.nesting_eq, hdepth, hle⟩

/-! ## Calls -/

/-- **What a call needs and what it returns**, where the call is made at a position of a row
of tokens with some parentheses open. -/
structure BoundedCall (tokens : List Token) (phrase : Phrase) (position nesting : Nat) :
    Prop where
  /-- The steps come to what the function for the phrase returns, or fail as it fails. -/
  comesTo : ComesTo tokens (.called phrase position nesting) phrase nesting []
    (readPhrase phrase (depthLimit - nesting) (cursorAt tokens position))
  /-- When the call returns it has taken three tokens or more and is within the row, the
  parentheses are counted as they were before, and the depth is that of the formula. -/
  returned : ∀ phrase' f depth position' nesting',
    Steps tokens (.called phrase position nesting)
      ⟨.returned phrase' f depth, position', nesting', []⟩ →
    position + 3 ≤ position' ∧ position' ≤ tokens.length ∧ nesting' = nesting ∧
      depth = f.depth ∧ depth ≤ depthLimit
  /-- What the function returns has taken three tokens or more, is within the row, and comes
  with its own depth. -/
  read : ∀ parsed,
    readPhrase phrase (depthLimit - nesting) (cursorAt tokens position) = .ok parsed →
    position + 3 ≤ parsed.cursor.position ∧ parsed.cursor.position ≤ tokens.length ∧
      parsed.depth = parsed.formula.depth ∧ parsed.depth ≤ depthLimit
  /-- Until the call returns the cursor is within the row, no more expressions are inside one
  another than parentheses may still be opened and one more, and no formula is too deep. -/
  between : ∀ walk, Steps tokens (.called phrase position nesting) walk →
    walk.position ≤ tokens.length ∧ walk.levels + nesting ≤ depthLimit + 1 ∧
      ∀ counted ∈ walk.held, counted.1.depth ≤ depthLimit

theorem boundedCall (phrase : Phrase) {position nesting : Nat}
    (hposition : position ≤ tokens.length) (hnesting : nesting ≤ depthLimit) :
    BoundedCall tokens phrase position nesting := by
  have hsound {walk : Walk} (hsteps : Steps tokens (.called phrase position nesting) walk) :
      walk.Sound tokens position nesting :=
    (sound_called phrase hposition hnesting).steps hsteps
  have hcomes : ComesTo tokens (.called phrase position nesting) phrase nesting []
      (readPhrase phrase (depthLimit - nesting) (cursorAt tokens position)) :=
    comesTo_readPhrase (Nat.add_sub_cancel' hnesting) phrase position []
  refine ⟨hcomes, fun phrase' f depth position' nesting' hsteps => (hsound hsteps).returned,
    fun parsed hread => ?_, fun walk hsteps => ?_⟩
  · rw [hread] at hcomes
    obtain ⟨htaken, hle, -, hdepth⟩ := (hsound hcomes.2).returned
    exact ⟨htaken, hle, hdepth⟩
  · refine ⟨(hsound hsteps).position_le, (hsound hsteps).levels_le, fun counted hmem => ?_⟩
    obtain ⟨hdepth, hle⟩ := (hsound hsteps).held counted hmem
    exact hdepth ▸ hle

/-- **Reading is bounded.** Every call within a row of tokens and within the limit is, the
steps end from wherever they begin, and no formula comes of it that is deeper than the
limit, or deeper by more than one level where rules are combined. -/
theorem reading_bounded (tokens : List Token) :
    (∀ phrase position nesting, position ≤ tokens.length → nesting ≤ depthLimit →
      BoundedCall tokens phrase position nesting) ∧
    (WellFounded fun later earlier => Walk.step tokens earlier = .going later) ∧
    (∀ f, parseTokens tokens = .ok f → f.depth ≤ depthLimit) ∧
    ∀ rules f, combine rules = .ok (some f) → f.depth ≤ depthLimit + 1 :=
  ⟨fun phrase _ _ hposition hnesting => boundedCall phrase hposition hnesting,
    wellFounded_step tokens, fun _ h => (derives_of_parseTokens h).2,
    fun _ _ h => depth_le_of_combine h⟩

/-- A condition in parentheses. -/
def sampleParentheses : List Token :=
  [.leftParen, .identifier "a", .comparator .lt, .quotedText "'x'", .rightParen]

/-- Reading is bounded inside of parentheses, also if as many are open as there can be. -/
theorem reading_bounded_in_parentheses :
    (1 ≤ sampleParentheses.length ∧ 50 ≤ depthLimit) ∧
      BoundedCall sampleParentheses .expression 1 50 :=
  ⟨by decide, (reading_bounded sampleParentheses).1 .expression 1 50 (by decide) (by decide)⟩

end Rulebook
