import Rulebook.Proofs.Token.Spelling

/-!
# The alternatives of the lexer

A token is of one of six kinds, and each kind has texts that it matches as a whole
(`TokenKind.Matches`), which is said here without a word on how they are found. At a
position of a text the lexer tries the kinds in a fixed order. The first one that matches
some beginning of what follows is taken, and of the beginnings that it matches the longest
(`TokenKind.Takes`).

`lexeme?_eq_some_iff` and `lexeme?_eq_none_iff` say that this is what the lexer does at
every position: it finds the greedy match of the first kind that matches, and it finds
nothing exactly where no kind matches. So what the lexer finds depends on nothing but the
beginnings of the text that some kind matches (`lexeme?_congr`).
-/

namespace Rulebook

/-! ## What a kind of token matches -/

/-- **The kinds of token**, in the order in which they are tried. -/
inductive TokenKind where
  /-- A comparator. -/
  | comparator
  /-- One of the words `AND` and `OR`. -/
  | connective
  /-- A parenthesis. -/
  | parenthesis
  /-- A name. -/
  | name
  /-- A text between quotes, on one line. -/
  | quoted
  /-- Digits. -/
  | digits
deriving DecidableEq

namespace TokenKind

/-- All kinds, in the order in which they are tried. -/
def inOrder : List TokenKind := [comparator, connective, parenthesis, name, quoted, digits]

theorem mem_inOrder (kind : TokenKind) : kind ∈ inOrder := by
  cases kind <;> simp [inOrder]

/-- The words of the connectives. -/
def connectiveWords : List (List Char) := [['A', 'N', 'D'], ['O', 'R']]

/-- The parentheses. -/
def parentheses : List (List Char) := [['('], [')']]

/-- **What a kind of token matches.** -/
def Matches : TokenKind → List Char → Prop
  | comparator, slice => slice ∈ comparatorSlices
  | connective, slice => slice ∈ connectiveWords
  | parenthesis, slice => slice ∈ parentheses
  | name, slice => isName slice
  | quoted, slice => ∃ body, slice = '\'' :: (body ++ ['\'']) ∧ ∀ c ∈ body, c ≠ '\'' ∧ c ≠ '\n'
  | digits, slice => slice ≠ [] ∧ ∀ c ∈ slice, c.isDigit

/-- **The token of a kind** that is made from what was matched. -/
def token : TokenKind → List Char → Token
  | comparator, slice => .comparator (.ofText (String.ofList slice))
  | connective, slice => if slice = ['A', 'N', 'D'] then .and else .or
  | parenthesis, slice => if slice = ['('] then .leftParen else .rightParen
  | name, slice => .identifier (String.ofList slice)
  | quoted, slice => .quotedText (String.ofList slice)
  | digits, slice => .number (.ofNat (natOfDigits slice))

/-- Whether a kind matches some beginning of a text. -/
def MatchesAt (kind : TokenKind) (text : List Char) : Prop :=
  ∃ slice, slice <+: text ∧ kind.Matches slice

/-- **The greedy match of a kind**: of the beginnings that it matches, the longest. -/
structure Takes (kind : TokenKind) (text slice : List Char) : Prop where
  /-- It is a beginning of the text. -/
  begins : slice <+: text
  /-- The kind matches it. -/
  fits : kind.Matches slice
  /-- The kind matches no longer beginning. -/
  longest : ∀ other, other <+: text → kind.Matches other → other.length ≤ slice.length

/-- There is one greedy match at most. -/
theorem Takes.unique {kind : TokenKind} {text slice slice' : List Char}
    (h : kind.Takes text slice) (h' : kind.Takes text slice') : slice = slice' := by
  have hle := h'.longest slice h.begins h.fits
  have hge := h.longest slice' h'.begins h'.fits
  exact (List.prefix_of_prefix_length_le h.begins h'.begins hle).eq_of_length
    (Nat.le_antisymm hle hge)

section Congr

-- two texts that have the same beginnings among those that the kind matches
variable {kind : TokenKind} {text text' slice : List Char}
  (h : ∀ slice, kind.Matches slice → (slice <+: text ↔ slice <+: text'))
include h

theorem matchesAt_congr : kind.MatchesAt text ↔ kind.MatchesAt text' :=
  exists_congr fun slice => and_congr_left (h slice)

theorem Takes.congr (htakes : kind.Takes text slice) : kind.Takes text' slice where
  begins := (h slice htakes.fits).mp htakes.begins
  fits := htakes.fits
  longest other hother hfits := htakes.longest other ((h other hfits).mpr hother) hfits

theorem takes_congr : kind.Takes text slice ↔ kind.Takes text' slice :=
  ⟨.congr h, .congr fun other hfits => (h other hfits).symm⟩

end Congr

end TokenKind

/-! ## Finding the greedy match of a kind -/

/-- The first of some words with which a text begins. -/
def firstWord? (words : List (List Char)) (text : List Char) : Option (List Char) :=
  words.find? fun word => decide (word <+: text)

section Words

variable {words : List (List Char)} {text slice : List Char}

theorem firstWord?_eq_some_iff : firstWord? words text = some slice ↔
    slice <+: text ∧ ∃ earlier later, words = earlier ++ slice :: later ∧
      ∀ word ∈ earlier, ¬ word <+: text := by
  simp [firstWord?, List.find?_eq_some_iff_append]

theorem firstWord?_eq_none_iff :
    firstWord? words text = none ↔ ∀ word ∈ words, ¬ word <+: text := by
  simp [firstWord?]

theorem firstWord?_pair_eq_none {first second : List Char} (hfirst : ¬ first <+: text)
    (hsecond : ¬ second <+: text) : firstWord? [first, second] text = none :=
  firstWord?_eq_none_iff.mpr
    (List.forall_mem_cons.mpr ⟨hfirst, List.forall_mem_singleton.mpr hsecond⟩)

theorem firstWord?_sound (h : firstWord? words text = some slice) :
    slice <+: text ∧ slice ∈ words := by
  obtain ⟨hbegins, earlier, later, rfl, -⟩ := firstWord?_eq_some_iff.mp h
  exact ⟨hbegins, List.mem_append_right earlier List.mem_cons_self⟩

/-- **The first word that a text begins with is the longest one**, if no word is the
beginning of a later one. -/
theorem exists_firstWord? (hwords : words.Pairwise fun earlier later => ¬ earlier <+: later)
    (hbegins : slice <+: text) (hmem : slice ∈ words) :
    ∃ found, firstWord? words text = some found ∧ slice.length ≤ found.length := by
  obtain ⟨found, hfound⟩ : ∃ found, firstWord? words text = some found :=
    Option.ne_none_iff_exists'.mp fun hnone =>
      firstWord?_eq_none_iff.mp hnone slice hmem hbegins
  refine ⟨found, hfound, ?_⟩
  obtain ⟨hfirst, earlier, later, rfl, hearlier⟩ := firstWord?_eq_some_iff.mp hfound
  rw [List.mem_append, List.mem_cons] at hmem
  obtain hmem | rfl | hmem := hmem
  · exact absurd hbegins (hearlier slice hmem)
  · exact Nat.le_refl _
  · have hnot := (List.pairwise_cons.mp (List.pairwise_append.mp hwords).2.1).1 slice hmem
    exact ((List.prefix_or_prefix_of_prefix hfirst hbegins).resolve_left hnot).length_le

end Words

/-- The comparators are words as well, and those of two characters come first. -/
theorem comparatorSlice?_eq (text : List Char) :
    comparatorSlice? text = firstWord? comparatorSlices text := by
  unfold comparatorSlice? firstWord?
  split
  case h_9 =>
    rename_i hne _ _ _
    have hne : ¬ ['!', '='] <+: text := fun ⟨rest, h⟩ => hne rest h.symm
    simp_all [comparatorSlices, List.cons_prefix_iff]
  all_goals simp_all [comparatorSlices, List.cons_prefix_iff]

/-- A text that has a stretch is taken at least up to the end of the stretch. -/
theorem length_le_length_takeWhile {p : Char → Bool} {stretch : List Char}
    (h : ∀ c ∈ stretch, p c) (rest : List Char) :
    stretch.length ≤ ((stretch ++ rest).takeWhile p).length := by
  rw [List.takeWhile_append_of_pos h, List.length_append]
  exact Nat.le_add_right _ _

/-- A text up to its closing quote, and the quote, are a beginning of the text. -/
theorem untilQuote?_begins {text body : List Char} (h : untilQuote? text = some body) :
    body ++ ['\''] <+: text := by
  unfold untilQuote? at h
  dsimp only at h
  split at h
  · rename_i tail hdrop
    cases h
    refine ⟨tail, ?_⟩
    rw [List.append_assoc, List.singleton_append, ← hdrop]
    exact List.prefix_iff_eq_append.mp <| List.takeWhile_prefix _
  · cases h

namespace TokenKind

/-- **How the greedy match of a kind is found.** -/
def greedy? : TokenKind → List Char → Option (List Char)
  | comparator, text => comparatorSlice? text
  | connective, text => firstWord? connectiveWords text
  | parenthesis, text => firstWord? parentheses text
  | name, [] => none
  | name, c :: rest => if startsName c then some (c :: rest.takeWhile continuesName) else none
  | quoted, [] => none
  | quoted, c :: rest =>
    if c = '\'' then (untilQuote? rest).map fun body => '\'' :: (body ++ ['\'']) else none
  | digits, [] => none
  | digits, c :: rest => if c.isDigit then some (c :: rest.takeWhile Char.isDigit) else none

variable {kind : TokenKind} {text slice : List Char}

/-- What is found is a beginning of the text that the kind matches. -/
theorem greedy?_sound (h : kind.greedy? text = some slice) :
    slice <+: text ∧ kind.Matches slice := by
  cases kind with
  | comparator =>
    have h : comparatorSlice? text = some slice := h
    rw [comparatorSlice?_eq] at h
    exact firstWord?_sound h
  | connective => exact firstWord?_sound h
  | parenthesis => exact firstWord?_sound h
  | name =>
    cases text with
    | nil => cases h
    | cons c rest =>
      obtain ⟨hstarts, h⟩ := Option.ite_none_right_eq_some.mp h
      cases h
      exact ⟨List.cons_prefix_cons.mpr ⟨rfl, List.takeWhile_prefix _⟩,
        isName_cons_iff.mpr ⟨hstarts, fun d hd => List.mem_takeWhile_imp hd⟩⟩
  | quoted =>
    cases text with
    | nil => cases h
    | cons c rest =>
      obtain ⟨rfl, h⟩ := Option.ite_none_right_eq_some.mp h
      obtain ⟨body, hbody, rfl⟩ := Option.map_eq_some_iff.mp h
      exact ⟨List.cons_prefix_cons.mpr ⟨rfl, untilQuote?_begins hbody⟩, body, rfl,
        mem_of_untilQuote? hbody⟩
  | digits =>
    cases text with
    | nil => cases h
    | cons c rest =>
      obtain ⟨hdigit, h⟩ := Option.ite_none_right_eq_some.mp h
      cases h
      exact ⟨List.cons_prefix_cons.mpr ⟨rfl, List.takeWhile_prefix _⟩, List.cons_ne_nil _ _,
        List.forall_mem_cons.mpr ⟨hdigit, fun d hd => List.mem_takeWhile_imp hd⟩⟩

/-- Where the kind matches a beginning of the text, one is found that is as long. -/
theorem exists_greedy? (hbegins : slice <+: text) (h : kind.Matches slice) :
    ∃ found, kind.greedy? text = some found ∧ slice.length ≤ found.length := by
  cases kind with
  | comparator =>
    show ∃ found, comparatorSlice? text = some found ∧ _
    rw [comparatorSlice?_eq]
    exact exists_firstWord? (by decide) hbegins h
  | connective => exact exists_firstWord? (by decide) hbegins h
  | parenthesis => exact exists_firstWord? (by decide) hbegins h
  | name =>
    obtain ⟨rest, rfl⟩ := hbegins
    cases slice with
    | nil => cases h
    | cons c more =>
      obtain ⟨hstarts, hmore⟩ := isName_cons_iff.mp h
      exact ⟨_, if_pos hstarts, Nat.succ_le_succ (length_le_length_takeWhile hmore rest)⟩
  | quoted =>
    obtain ⟨rest, rfl⟩ := hbegins
    obtain ⟨body, rfl, hbody⟩ := h
    refine ⟨'\'' :: (body ++ ['\'']), ?_, Nat.le_refl _⟩
    show (untilQuote? (body ++ ['\''] ++ rest)).map _ = _
    rw [List.append_assoc, List.singleton_append, untilQuote?_append hbody]
    rfl
  | digits =>
    obtain ⟨rest, rfl⟩ := hbegins
    cases slice with
    | nil => exact absurd rfl h.1
    | cons c more =>
      obtain ⟨hdigit, hmore⟩ := List.forall_mem_cons.mp h.2
      exact ⟨_, if_pos hdigit, Nat.succ_le_succ (length_le_length_takeWhile hmore rest)⟩

theorem takes_of_greedy? (h : kind.greedy? text = some slice) : kind.Takes text slice := by
  obtain ⟨hbegins, hmatches⟩ := greedy?_sound h
  refine ⟨hbegins, hmatches, fun other hother hfits => ?_⟩
  obtain ⟨found, hfound, hle⟩ := exists_greedy? hother hfits
  rw [h, Option.some_inj] at hfound
  exact hfound ▸ hle

/-- **What is found is the greedy match.** -/
theorem greedy?_eq_some_iff : kind.greedy? text = some slice ↔ kind.Takes text slice := by
  refine ⟨takes_of_greedy?, fun h => ?_⟩
  obtain ⟨found, hfound, -⟩ := exists_greedy? h.begins h.fits
  rw [h.unique (takes_of_greedy? hfound)]
  exact hfound

/-- **Nothing is found** where the kind does not match. -/
theorem greedy?_eq_none_iff : kind.greedy? text = none ↔ ¬ kind.MatchesAt text := by
  constructor
  · rintro h ⟨slice, hbegins, hmatches⟩
    obtain ⟨found, hfound, -⟩ := exists_greedy? hbegins hmatches
    rw [h] at hfound
    cases hfound
  · intro h
    refine Option.eq_none_iff_forall_ne_some.mpr fun slice hslice => ?_
    exact h ⟨slice, greedy?_sound hslice⟩

end TokenKind

/-! ## What the lexer finds -/

/-- **The lexer goes through the kinds** and takes what the first one finds. -/
theorem lexeme?_eq_findSome? (text : List Char) :
    lexeme? text = TokenKind.inOrder.findSome? fun kind =>
      (kind.greedy? text).map fun slice => ⟨slice, kind.token slice⟩ := by
  unfold lexeme?
  have hcomparator : TokenKind.comparator.greedy? text = comparatorSlice? text := rfl
  rw [TokenKind.inOrder, List.findSome?_cons, hcomparator]
  cases comparatorSlice? text with
  | some slice => rfl
  | none =>
    dsimp only [Option.map_none]
    split
    · rfl
    · rfl
    · rfl
    · rfl
    · rename_i c rest hand hor hleft hright
      have hconnective : TokenKind.connective.greedy? (c :: rest) = none := by
        refine firstWord?_pair_eq_none ?_ ?_
        · rintro ⟨more, h⟩
          cases h
          exact hand more rfl rfl
        · rintro ⟨more, h⟩
          cases h
          exact hor more rfl rfl
      have hparenthesis : TokenKind.parenthesis.greedy? (c :: rest) = none := by
        refine firstWord?_pair_eq_none ?_ ?_
        · rintro ⟨more, h⟩
          cases h
          exact hleft rfl
        · rintro ⟨more, h⟩
          cases h
          exact hright rfl
      simp only [List.findSome?_cons, hconnective, hparenthesis, Option.map_none]
      by_cases hstarts : startsName c
      · simp [TokenKind.greedy?, TokenKind.token, Lexeme.ofStretch, hstarts]
      by_cases hquote : c = '\''
      · subst hquote
        cases hbody : untilQuote? rest <;>
          simp [TokenKind.greedy?, TokenKind.token, Lexeme.ofStretch, hstarts, hbody]
      by_cases hdigit : c.isDigit <;>
        simp [TokenKind.greedy?, TokenKind.token, hstarts, hquote, hdigit]
    · rfl

/-- **The first kind that matches** at the start of a text takes its greedy match, and the
token is made from that match. -/
def FirstTakes (text : List Char) (l : Lexeme) : Prop :=
  ∃ (before : List TokenKind) (kind : TokenKind) (after : List TokenKind),
    TokenKind.inOrder = before ++ kind :: after ∧ (∀ earlier ∈ before, ¬ earlier.MatchesAt text) ∧
      kind.Takes text l.slice ∧ l.token = kind.token l.slice

/-- **What the lexer finds** is the greedy match of the first kind that matches. -/
theorem lexeme?_eq_some_iff {text : List Char} {l : Lexeme} :
    lexeme? text = some l ↔ FirstTakes text l := by
  rw [lexeme?_eq_findSome?, List.findSome?_eq_some_iff]
  simp only [Option.map_eq_some_iff, Option.map_eq_none_iff, TokenKind.greedy?_eq_some_iff,
    TokenKind.greedy?_eq_none_iff]
  constructor
  · rintro ⟨before, kind, after, horder, ⟨slice, htakes, rfl⟩, hbefore⟩
    exact ⟨before, kind, after, horder, hbefore, htakes, rfl⟩
  · rintro ⟨before, kind, after, horder, hbefore, htakes, htoken⟩
    exact ⟨before, kind, after, horder, ⟨l.slice, htakes, by rw [← htoken]⟩, hbefore⟩

/-- **The lexer finds nothing** exactly where no kind matches. -/
theorem lexeme?_eq_none_iff {text : List Char} :
    lexeme? text = none ↔ ∀ kind : TokenKind, ¬ kind.MatchesAt text := by
  rw [lexeme?_eq_findSome?, List.findSome?_eq_none_iff]
  simp only [Option.map_eq_none_iff, TokenKind.greedy?_eq_none_iff, TokenKind.mem_inOrder,
    forall_true_left]

/-- **The lexer sees nothing but the beginnings that some kind matches.** -/
theorem lexeme?_congr {text text' : List Char}
    (h : ∀ (kind : TokenKind) (slice : List Char), kind.Matches slice →
      (slice <+: text ↔ slice <+: text')) : lexeme? text = lexeme? text' := by
  ext l
  have hmatches (kind : TokenKind) : kind.MatchesAt text ↔ kind.MatchesAt text' :=
    TokenKind.matchesAt_congr (h kind)
  have htakes (kind : TokenKind) : kind.Takes text l.slice ↔ kind.Takes text' l.slice :=
    TokenKind.takes_congr (h kind)
  rw [lexeme?_eq_some_iff, lexeme?_eq_some_iff]
  simp only [FirstTakes, hmatches, htakes]

end Rulebook
