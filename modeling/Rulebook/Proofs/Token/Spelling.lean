import Mathlib.Data.List.TakeWhile
import Rulebook.Proofs.Number.Digits
import Rulebook.Token.Lexer

/-!
# How tokens are spelled

The lexer tries the kinds of token one after the other and takes the first that
matches, as long as it goes. `Spells` says without any order what characters a
token of each kind is made of. Everything that the lexer takes for a token spells
it (`spells_of_lexeme?`), and what spells a token is taken for it, as a whole,
where nothing follows that could go on with it (`lexeme?_of_spells`).

So a text that is put together from spelled tokens and blanks is cut into these
tokens again: a token comes off its front (`tokensOf_append`), and so does a blank
(`tokensOf_blank`).
-/

namespace Rulebook

/-! ## Names -/

/-- **Whether characters make a name**: a letter or `_`, and then letters, digits
and `_`. -/
def isName : List Char → Bool
  | [] => false
  | c :: more => startsName c && more.all continuesName

/-- Whether a text begins with `AND` or `OR`, also inside of a word. -/
def startsConnective (text : List Char) : Bool :=
  ['A', 'N', 'D'].isPrefixOf text || ['O', 'R'].isPrefixOf text

/-- A character that can begin a name can also go on with one. -/
theorem continuesName_of_startsName {c : Char} (h : startsName c) : continuesName c := by
  rw [startsName, Bool.or_eq_true] at h
  rw [continuesName, Char.isAlphanum, Bool.or_eq_true, Bool.or_eq_true]
  exact h.imp_left .inl

theorem continuesName_of_isDigit {c : Char} (h : c.isDigit) : continuesName c := by
  rw [continuesName, Char.isAlphanum, h, Bool.or_true, Bool.true_or]

theorem isName_cons_iff {c : Char} {more : List Char} :
    isName (c :: more) ↔ startsName c ∧ ∀ d ∈ more, continuesName d := by
  simp [isName]

/-- **Where the characters are that begin a name.** -/
theorem toNat_of_startsName {c : Char} (h : startsName c) :
    (65 ≤ c.toNat ∧ c.toNat ≤ 90) ∨ (97 ≤ c.toNat ∧ c.toNat ≤ 122) ∨ c.toNat = 95 := by
  have hletter : startsName c = ((decide ('A'.val ≤ c.val ∧ c.val ≤ 'Z'.val) ||
      (decide ('a'.val ≤ c.val) && decide (c.val ≤ 'z'.val))) || c == '_') := rfl
  simp only [hletter, Bool.or_eq_true, Bool.and_eq_true, decide_eq_true_eq, beq_iff_eq,
    UInt32.le_iff_toNat_le] at h
  obtain (hupper | hlower) | rfl := h
  · exact .inl hupper
  · exact .inr (.inl hlower)
  · exact .inr (.inr rfl)

/-- No name begins with a digit. -/
theorem startsName_of_isDigit {c : Char} (h : c.isDigit) : startsName c = false := by
  refine Bool.eq_false_iff.mpr fun hstarts => ?_
  have hdigit := toNat_of_isDigit h
  have hstart := toNat_of_startsName hstarts
  omega

/-! ## Spelling -/

/-- The characters of the comparators. -/
def comparatorSlices : List (List Char) :=
  [['=', '>'], ['<', '='], ['>', '='], ['=', '='], ['!', '='], ['<'], ['>'], ['=']]

/-- **What characters spell a token.** -/
inductive Spells : List Char → Token → Prop where
  /-- One of the comparators. -/
  | comparator {slice : List Char} (h : slice ∈ comparatorSlices) :
    Spells slice (.comparator (.ofText (String.ofList slice)))
  /-- The word `AND`. -/
  | and : Spells ['A', 'N', 'D'] .and
  /-- The word `OR`. -/
  | or : Spells ['O', 'R'] .or
  /-- An opening parenthesis. -/
  | leftParen : Spells ['('] .leftParen
  /-- A closing parenthesis. -/
  | rightParen : Spells [')'] .rightParen
  /-- A name that does not begin with a connective. -/
  | name {name : List Char} (hname : isName name) (hconnective : startsConnective name = false) :
    Spells name (.identifier (String.ofList name))
  /-- A text between quotes, on one line. -/
  | quoted {body : List Char} (h : ∀ c ∈ body, c ≠ '\'' ∧ c ≠ '\n') :
    Spells ('\'' :: (body ++ ['\''])) (.quotedText (String.ofList ('\'' :: (body ++ ['\'']))))
  /-- Digits. -/
  | digits {digits : List Char} (hne : digits ≠ []) (h : ∀ c ∈ digits, c.isDigit) :
    Spells digits (.number (.ofNat (natOfDigits digits)))

theorem Spells.ne_nil {slice : List Char} {t : Token} (h : Spells slice t) : slice ≠ [] := by
  cases h with
  | comparator h =>
    rintro rfl
    exact absurd h (by decide)
  | name hname =>
    rintro rfl
    cases hname
  | digits hne => exact hne
  | _ => exact List.cons_ne_nil _ _

/-! ## What is taken for a token spells it -/

/-- A comparator that is found is one of the comparators. -/
theorem mem_of_comparatorSlice? {text slice : List Char} (h : comparatorSlice? text = some slice) :
    slice ∈ comparatorSlices := by
  unfold comparatorSlice? at h
  split at h
  all_goals first
    | (cases h; decide)
    | cases h

/-- A text up to its closing quote holds neither a quote nor a line break. -/
theorem mem_of_untilQuote? {text body : List Char} (h : untilQuote? text = some body) :
    ∀ c ∈ body, c ≠ '\'' ∧ c ≠ '\n' := by
  unfold untilQuote? at h
  dsimp only at h
  split at h
  · cases h
    intro c hc
    have hp := List.mem_takeWhile_imp hc
    exact of_decide_eq_true hp
  · cases h

/-- A name that goes on as far as it can does not begin with a connective, unless the
text does. -/
theorem startsConnective_takeWhile {c : Char} {rest : List Char}
    (hand : ∀ more, c = 'A' → rest ≠ 'N' :: 'D' :: more)
    (hor : ∀ more, c = 'O' → rest ≠ 'R' :: more) (p : Char → Bool) :
    startsConnective (c :: rest.takeWhile p) = false := by
  have hbegins : c :: rest.takeWhile p <+: c :: rest :=
    List.cons_prefix_cons.mpr ⟨rfl, List.takeWhile_prefix p⟩
  rw [startsConnective, Bool.or_eq_false_iff, Bool.eq_false_iff, Bool.eq_false_iff, Ne, Ne,
    List.isPrefixOf_iff_prefix, List.isPrefixOf_iff_prefix]
  constructor
  · intro h
    obtain ⟨more, hmore⟩ := h.trans hbegins
    cases hmore
    exact hand more rfl rfl
  · intro h
    obtain ⟨more, hmore⟩ := h.trans hbegins
    cases hmore
    exact hor more rfl rfl

/-- **What the lexer takes for a token spells it.** -/
theorem spells_of_lexeme? {text : List Char} {l : Lexeme} (h : lexeme? text = some l) :
    Spells l.slice l.token := by
  unfold lexeme? at h
  split at h
  · rename_i slice hslice
    cases h
    exact .comparator (mem_of_comparatorSlice? hslice)
  · split at h
    · cases h; exact .and
    · cases h; exact .or
    · cases h; exact .leftParen
    · cases h; exact .rightParen
    · rename_i c rest hand hor _ _ _
      -- the connectives come first, so a name does not begin with one
      split at h
      · rename_i hstarts
        cases h
        refine .name ?_ (startsConnective_takeWhile hand hor continuesName)
        exact isName_cons_iff.mpr ⟨hstarts, fun d hd => List.mem_takeWhile_imp hd⟩
      split at h
      · obtain ⟨body, hbody, rfl⟩ := Option.map_eq_some_iff.mp h
        exact .quoted (mem_of_untilQuote? hbody)
      split at h
      · rename_i hdigit
        cases h
        refine .digits (List.cons_ne_nil _ _) (fun d hd => ?_)
        obtain rfl | hd := List.mem_cons.mp hd
        · exact hdigit
        · exact List.mem_takeWhile_imp hd
      · cases h
    · cases h

theorem spells_of_mem_scanFrom {skip : Nat} {text : List Char} {l : Lexeme}
    (h : l ∈ lexemesOf (scanFrom skip text)) : Spells l.slice l.token := by
  induction text generalizing skip with
  | nil =>
    cases skip with
    | zero => cases h
    | succ skip => cases h
  | cons first text ih =>
    cases skip with
    | succ skip =>
      rw [scanFrom] at h
      exact ih h
    | zero =>
      rw [scanFrom] at h
      split at h
      · rename_i found hfound
        rw [lexemesOf, List.mem_cons] at h
        obtain rfl | h := h
        · exact spells_of_lexeme? hfound
        · exact ih h
      · exact ih h

/-- **Every token of a text is spelled.** -/
theorem exists_spells_of_mem_tokenize {text : String} {t : Token} (h : t ∈ tokenize text) :
    ∃ slice, Spells slice t := by
  obtain ⟨l, hl, rfl⟩ := List.mem_map.mp h
  exact ⟨l.slice, spells_of_mem_scanFrom hl⟩

/-! ## What spells a token is taken for it -/

/-- **Where a token ends at the latest**: the text is over, or goes on with something
that no token goes on with. -/
def Boundary (rest : List Char) : Prop :=
  ∀ c ∈ rest.head?, continuesName c = false ∧ c ≠ '=' ∧ c ≠ '>'

theorem boundary_nil : Boundary [] := by
  intro c hc
  cases hc

theorem boundary_cons {c : Char} (h : continuesName c = false ∧ c ≠ '=' ∧ c ≠ '>')
    (rest : List Char) : Boundary (c :: rest) := by
  intro d hd
  rw [List.head?_cons, Option.mem_some_iff] at hd
  exact hd ▸ h

/-- A stretch that goes on as far as it can is taken as a whole before a boundary. -/
theorem Boundary.takeWhile_append {p : Char → Bool} (hp : ∀ c, p c → continuesName c)
    {stretch rest : List Char} (hstretch : ∀ c ∈ stretch, p c) (hrest : Boundary rest) :
    (stretch ++ rest).takeWhile p = stretch := by
  rw [List.takeWhile_append_of_pos hstretch]
  cases rest with
  | nil => exact List.append_nil stretch
  | cons c more =>
    have hc : ¬ p c := fun h => Bool.false_ne_true ((hrest c rfl).1.symm.trans (hp c h))
    rw [List.takeWhile_cons_of_neg hc, List.append_nil]

/-- A comparator is found as a whole before a boundary. -/
theorem comparatorSlice?_append {slice rest : List Char} (h : slice ∈ comparatorSlices)
    (hrest : Boundary rest) : comparatorSlice? (slice ++ rest) = some slice := by
  simp only [comparatorSlices, List.mem_cons, List.not_mem_nil, or_false] at h
  -- of two characters there is nothing to go on with; a single one must not be followed
  -- by `=` or `>`
  obtain rfl | rfl | rfl | rfl | rfl | rfl | rfl | rfl := h
  · rfl
  · rfl
  · rfl
  · rfl
  · rfl
  all_goals
    cases rest with
    | nil => rfl
    | cons c more =>
      obtain ⟨-, heq, hgt⟩ := hrest c rfl
      unfold comparatorSlice?
      split
      all_goals rename_i htext
      all_goals simp_all

/-- No comparator begins with a character of another token. -/
theorem comparatorSlice?_eq_none {c : Char} (h : c ≠ '=' ∧ c ≠ '<' ∧ c ≠ '>' ∧ c ≠ '!')
    (rest : List Char) : comparatorSlice? (c :: rest) = none := by
  unfold comparatorSlice?
  split
  all_goals rename_i htext
  all_goals simp_all

/-- A quoted text is found up to its quote. -/
theorem untilQuote?_append {body : List Char} (h : ∀ c ∈ body, c ≠ '\'' ∧ c ≠ '\n')
    (rest : List Char) : untilQuote? (body ++ '\'' :: rest) = some body := by
  have htake : (body ++ '\'' :: rest).takeWhile (fun c => c ≠ '\'' ∧ c ≠ '\n') = body := by
    rw [List.takeWhile_append_of_pos (fun c hc => decide_eq_true (h c hc)),
      List.takeWhile_cons_of_neg (by decide), List.append_nil]
  unfold untilQuote?
  dsimp only
  rw [htake, List.drop_left]
  rfl

/-- A character of a name, a digit or a quote begins no comparator. -/
theorem comparatorSlice?_of_continuesName {c : Char} (h : continuesName c ∨ c = '\'')
    (rest : List Char) : comparatorSlice? (c :: rest) = none := by
  refine comparatorSlice?_eq_none ⟨?_, ?_, ?_, ?_⟩ rest
  all_goals
    rintro rfl
    exact absurd h (by decide)

/-- **What is left where no comparator, no connective and no parenthesis stands**: a
name, a quoted text or digits. -/
theorem lexeme?_of_plain {c : Char} {rest : List Char}
    (hcomparator : comparatorSlice? (c :: rest) = none)
    (hand : ∀ more, c = 'A' → rest ≠ 'N' :: 'D' :: more)
    (hor : ∀ more, c = 'O' → rest ≠ 'R' :: more) (hparen : c ≠ '(' ∧ c ≠ ')') :
    lexeme? (c :: rest) =
      if startsName c then
        some (.ofStretch c (rest.takeWhile continuesName) .identifier)
      else if c = '\'' then
        (untilQuote? rest).map fun body => .ofStretch '\'' (body ++ ['\'']) .quotedText
      else if c.isDigit then
        some ⟨c :: rest.takeWhile Char.isDigit,
          .number (.ofNat (natOfDigits (c :: rest.takeWhile Char.isDigit)))⟩
      else none := by
  unfold lexeme?
  rw [hcomparator]
  dsimp only
  split
  · rename_i htext
    cases htext
    exact absurd rfl (hand _ rfl)
  · rename_i htext
    cases htext
    exact absurd rfl (hor _ rfl)
  · rename_i htext
    cases htext
    exact absurd rfl hparen.1
  · rename_i htext
    cases htext
    exact absurd rfl hparen.2
  · rename_i htext
    cases htext
    rfl
  · rename_i htext
    cases htext

/-- A name that does not begin with a connective does not begin with one before a
boundary either. -/
theorem not_connective_append {c : Char} {more rest : List Char}
    (h : startsConnective (c :: more) = false) (hrest : Boundary rest) :
    (∀ tail, c = 'A' → more ++ rest ≠ 'N' :: 'D' :: tail) ∧
      ∀ tail, c = 'O' → more ++ rest ≠ 'R' :: tail := by
  have hhead (d : Char) (tail : List Char) (hd : continuesName d) : rest ≠ d :: tail := by
    rintro rfl
    exact Bool.false_ne_true ((hrest d rfl).1.symm.trans hd)
  constructor
  · rintro tail rfl htext
    match more with
    | [] => exact hhead 'N' _ (by decide) htext
    | [n] =>
      obtain ⟨rfl, hrest⟩ := List.cons.inj htext
      exact hhead 'D' _ (by decide) hrest
    | n :: d :: more =>
      cases htext
      cases h
  · rintro tail rfl htext
    match more with
    | [] => exact hhead 'R' _ (by decide) htext
    | r :: more =>
      cases htext
      cases h

/-- A name is taken as a whole. -/
theorem lexeme?_name {name rest : List Char} (hname : isName name)
    (hconnective : startsConnective name = false) (hrest : Boundary rest) :
    lexeme? (name ++ rest) = some ⟨name, .identifier (String.ofList name)⟩ := by
  cases name with
  | nil => cases hname
  | cons c more =>
    obtain ⟨hstarts, hmore⟩ := isName_cons_iff.mp hname
    obtain ⟨hand, hor⟩ := not_connective_append hconnective hrest
    have hcomparator := comparatorSlice?_of_continuesName
      (.inl (continuesName_of_startsName hstarts)) (more ++ rest)
    have hparen : c ≠ '(' ∧ c ≠ ')' := by
      constructor <;> rintro rfl <;> exact absurd hstarts (by decide)
    rw [List.cons_append, lexeme?_of_plain hcomparator hand hor hparen, if_pos hstarts,
      hrest.takeWhile_append (fun _ => id) hmore]
    rfl

/-- A quoted text is taken up to its quote, whatever follows. -/
theorem lexeme?_quoted {body : List Char} (h : ∀ c ∈ body, c ≠ '\'' ∧ c ≠ '\n')
    (rest : List Char) :
    lexeme? ('\'' :: (body ++ ['\'']) ++ rest)
      = some ⟨'\'' :: (body ++ ['\'']),
          .quotedText (String.ofList ('\'' :: (body ++ ['\''])))⟩ := by
  rw [List.cons_append, List.append_assoc, List.singleton_append,
    lexeme?_of_plain (comparatorSlice?_of_continuesName (.inr rfl) _)
      (fun _ h => absurd h (by decide)) (fun _ h => absurd h (by decide)) (by decide),
    if_neg (by decide), if_pos rfl, untilQuote?_append h]
  rfl

/-- Digits are taken as a whole. -/
theorem lexeme?_digits {digits rest : List Char} (hne : digits ≠ [])
    (h : ∀ c ∈ digits, c.isDigit) (hrest : Boundary rest) :
    lexeme? (digits ++ rest) = some ⟨digits, .number (.ofNat (natOfDigits digits))⟩ := by
  cases digits with
  | nil => exact absurd rfl hne
  | cons c more =>
    have hc := h c List.mem_cons_self
    have htake := hrest.takeWhile_append (fun _ => continuesName_of_isDigit)
      (fun d hd => h d (List.mem_cons_of_mem _ hd))
    have hnot (d : Char) (hd : d.isDigit = false) : c ≠ d := by
      rintro rfl
      exact Bool.false_ne_true (hd.symm.trans hc)
    rw [List.cons_append,
      lexeme?_of_plain
        (comparatorSlice?_of_continuesName (.inl (continuesName_of_isDigit hc)) _)
        (fun _ h => absurd h (hnot 'A' rfl)) (fun _ h => absurd h (hnot 'O' rfl))
        ⟨hnot '(' rfl, hnot ')' rfl⟩,
      if_neg (ne_true_of_eq_false (startsName_of_isDigit hc)), if_neg (hnot '\'' rfl), if_pos hc,
      htake]

/-- **What spells a token is taken for it** where a token ends at the latest. -/
theorem lexeme?_of_spells {slice rest : List Char} {t : Token} (h : Spells slice t)
    (hrest : Boundary rest) : lexeme? (slice ++ rest) = some ⟨slice, t⟩ := by
  cases h with
  | comparator h =>
    unfold lexeme?
    rw [comparatorSlice?_append h hrest]
  | and => rfl
  | or => rfl
  | leftParen => rfl
  | rightParen => rfl
  | name hname hconnective => exact lexeme?_name hname hconnective hrest
  | quoted h => exact lexeme?_quoted h rest
  | digits hne h => exact lexeme?_digits hne h hrest

/-! ## Token by token -/

/-- **The tokens of a text** that is given by its characters. -/
def tokensOf (text : List Char) : List Token := (lexemes text).map Lexeme.token

/-- The characters of a lexeme are passed over. -/
theorem scanFrom_length (slice rest : List Char) :
    scanFrom slice.length (slice ++ rest) = scanFrom 0 rest := by
  induction slice with
  | nil => rfl
  | cons c slice ih =>
    rw [List.length_cons, List.cons_append, scanFrom]
    exact ih

/-- **A token that is found is the first piece of a text.** -/
theorem scan_of_lexeme? {l : Lexeme} {rest : List Char} (hne : l.slice ≠ [])
    (h : lexeme? (l.slice ++ rest) = some l) : scan (l.slice ++ rest) = .lexeme l :: scan rest := by
  obtain ⟨slice, t⟩ := l
  cases slice with
  | nil => exact absurd rfl hne
  | cons c slice =>
    dsimp only at h ⊢
    rw [scan, List.cons_append, scanFrom, ← List.cons_append, h]
    dsimp only
    rw [List.length_cons, Nat.add_sub_cancel, scanFrom_length]
    rfl

/-- **What begins no token is dropped.** -/
theorem scan_of_none {c : Char} {rest : List Char} (h : lexeme? (c :: rest) = none) :
    scan (c :: rest) = .dropped c :: scan rest := by
  rw [scan, scanFrom, h]
  rfl

/-- A token that is found comes off the front of a text. -/
theorem tokensOf_of_lexeme? {slice rest : List Char} {t : Token} (hne : slice ≠ [])
    (h : lexeme? (slice ++ rest) = some ⟨slice, t⟩) :
    tokensOf (slice ++ rest) = t :: tokensOf rest := by
  rw [tokensOf, lexemes, scan_of_lexeme? (l := ⟨slice, t⟩) hne h]
  rfl

/-- **A token that is spelled comes off the front of a text.** -/
theorem tokensOf_append {slice rest : List Char} {t : Token} (h : Spells slice t)
    (hrest : Boundary rest) : tokensOf (slice ++ rest) = t :: tokensOf rest :=
  tokensOf_of_lexeme? h.ne_nil (lexeme?_of_spells h hrest)

theorem tokensOf_cons {c : Char} {rest : List Char} (h : lexeme? (c :: rest) = none) :
    tokensOf (c :: rest) = tokensOf rest := by
  rw [tokensOf, lexemes, scan_of_none h]
  rfl

/-- A blank is dropped. -/
@[simp] theorem tokensOf_blank (rest : List Char) : tokensOf (' ' :: rest) = tokensOf rest :=
  tokensOf_cons rfl

end Rulebook
