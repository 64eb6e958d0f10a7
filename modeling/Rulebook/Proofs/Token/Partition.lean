import Rulebook.Proofs.Token.Alternatives

/-!
# A text and its tokens

The lexer cuts a text into tokens and stretches that belong to none, and nothing of it is
lost: slices and stretches in turn are the text again (`weave_gapsOf`). At each place of
the cut the pieces from there on are the cut of what follows (`scan_eq_of_append`), so what
stands there is what the lexer finds there. With what `Alternatives` says of that,
`tokenize_partition` describes all tokens of a text and all characters that are dropped.

In particular no letter, digit, underscore or parenthesis and no `<`, `>` or `=` is
dropped. A `!` is dropped only if no `=` follows it, and a quote only if it is not closed
on its line.
-/

namespace Rulebook

/-- The characters of a piece of a text. -/
def Cut.chars : Cut → List Char
  | .lexeme l => l.slice
  | .dropped c => [c]

/-- **The text that pieces make up.** -/
def textOf (cuts : List Cut) : List Char := cuts.flatMap Cut.chars

@[simp] theorem textOf_cons (cut : Cut) (cuts : List Cut) :
    textOf (cut :: cuts) = cut.chars ++ textOf cuts := rfl

theorem Lexeme.slice_ne_nil {text : List Char} {l : Lexeme} (h : lexeme? text = some l) :
    l.slice ≠ [] :=
  (spells_of_lexeme? h).ne_nil

theorem Lexeme.slice_begins {text : List Char} {l : Lexeme} (h : lexeme? text = some l) :
    l.slice <+: text := by
  obtain ⟨_, _, _, _, _, htakes, _⟩ := lexeme?_eq_some_iff.mp h
  exact htakes.begins

/-- **Induction along the pieces of a text**: it is empty, or begins with a token and goes on
after it, or begins with a character that is dropped. -/
@[elab_as_elim]
theorem piece_induction {motive : List Char → Prop} (nil : motive [])
    (lexeme : ∀ (l : Lexeme) (rest : List Char), lexeme? (l.slice ++ rest) = some l → motive rest →
      motive (l.slice ++ rest))
    (dropped : ∀ (c : Char) (rest : List Char), lexeme? (c :: rest) = none → motive rest →
      motive (c :: rest)) (text : List Char) : motive text := by
  induction hlength : text.length using Nat.strong_induction_on generalizing text with
  | _ n ih =>
  subst hlength
  cases text with
  | nil => exact nil
  | cons c rest =>
    cases h : lexeme? (c :: rest) with
    | none => exact dropped c rest h (ih _ (Nat.lt_succ_self _) rest rfl)
    | some l =>
      obtain ⟨more, hmore⟩ := Lexeme.slice_begins h
      rw [← hmore] at h ih ⊢
      refine lexeme l more h (ih _ ?_ more rfl)
      rw [List.length_append]
      exact Nat.lt_add_of_pos_left (List.length_pos_iff.mpr (Lexeme.slice_ne_nil h))

/-- **Nothing is lost.** -/
theorem textOf_scan (text : List Char) : textOf (scan text) = text := by
  induction text using piece_induction with
  | nil => rfl
  | lexeme l rest h ih => rw [scan_of_lexeme? (Lexeme.slice_ne_nil h) h, textOf_cons, ih]; rfl
  | dropped c rest h ih => rw [scan_of_none h, textOf_cons, ih]; rfl

/-- **What comes after some pieces is the cut of the text from there on.** -/
theorem scan_eq_of_append {text : List Char} {before after : List Cut}
    (h : scan text = before ++ after) : after = scan (textOf after) := by
  induction before generalizing text with
  | nil => rw [show after = scan text from h.symm, textOf_scan]
  | cons cut before ih =>
    cases text using piece_induction with
    | nil => cases h
    | lexeme l rest hl =>
      rw [scan_of_lexeme? (Lexeme.slice_ne_nil hl) hl] at h
      exact ih (List.cons.inj h).2
    | dropped c rest hc =>
      rw [scan_of_none hc] at h
      exact ih (List.cons.inj h).2

/-- **That a piece is what the lexer finds** at the start of a text. -/
def Cut.FoundAt (text : List Char) : Cut → Prop
  | .lexeme l => lexeme? text = some l
  | .dropped _ => lexeme? text = none

/-- **Every piece is what the lexer finds** where it stands. -/
theorem foundAt_of_scan {text : List Char} {before after : List Cut} {cut : Cut}
    (h : scan text = before ++ cut :: after) : cut.FoundAt (textOf (cut :: after)) := by
  have hscan : scan (textOf (cut :: after)) = cut :: after := (scan_eq_of_append h).symm
  generalize textOf (cut :: after) = rest at hscan ⊢
  cases rest using piece_induction with
  | nil => cases hscan
  | lexeme l rest hl =>
    rw [scan_of_lexeme? (Lexeme.slice_ne_nil hl) hl] at hscan
    cases hscan
    exact hl
  | dropped c rest hc =>
    rw [scan_of_none hc] at hscan
    cases hscan
    exact hc

/-! ## Slices and gaps -/

/-- Gaps and slices in turn, beginning with a gap. -/
def weave : List (List Char) → List (List Char) → List Char
  | gap :: gaps, slice :: slices => gap ++ slice ++ weave gaps slices
  | gaps, [] => gaps.flatten
  | [], slices => slices.flatten

/-- There is a gap before the first token, between two, and after the last. -/
theorem length_gapsOf (cuts : List Cut) : (gapsOf cuts).length = (lexemesOf cuts).length + 1 := by
  induction cuts with
  | nil => rfl
  | cons cut cuts ih =>
    cases cut with
    | lexeme l => rw [gapsOf, lexemesOf, List.length_cons, ih, List.length_cons]
    | dropped c =>
      rw [gapsOf, lexemesOf]
      split
      · rename_i hgaps
        rw [← ih, hgaps, List.length_cons, List.length_cons]
      · rename_i hgaps
        simp [hgaps] at ih

/-- **Gaps and slices make up the text.** -/
theorem weave_gapsOf (cuts : List Cut) :
    weave (gapsOf cuts) ((lexemesOf cuts).map Lexeme.slice) = textOf cuts := by
  induction cuts with
  | nil => rfl
  | cons cut cuts ih =>
    cases cut with
    | lexeme l => rw [gapsOf, lexemesOf, List.map_cons, weave, ih]; rfl
    | dropped c =>
      have hlength := length_gapsOf cuts
      rw [gapsOf, lexemesOf, textOf_cons, ← ih]
      split
      · cases (lexemesOf cuts).map Lexeme.slice <;> simp_all [weave, Cut.chars]
      · simp_all

/-! ## What is dropped -/

/-- Where nothing is found, nothing stands that some kind of token matches. -/
theorem not_matches_of_none {c : Char} {rest slice : List Char} (h : lexeme? (c :: rest) = none)
    (hbegins : slice <+: c :: rest) (kind : TokenKind) : ¬ kind.Matches slice :=
  fun hmatches => lexeme?_eq_none_iff.mp h kind ⟨slice, hbegins, hmatches⟩

/-- **No character that is a token alone is dropped.** -/
theorem not_single_of_none {c : Char} {rest : List Char} (h : lexeme? (c :: rest) = none) :
    continuesName c = false ∧ c ∉ ['(', ')', '<', '>', '='] := by
  have hnot : ∀ kind : TokenKind, ¬ kind.Matches [c] := not_matches_of_none h ⟨rest, rfl⟩
  have hdigit : c.isDigit = false := by
    simpa [TokenKind.Matches] using hnot .digits
  have hstarts : startsName c = false := by
    simpa [TokenKind.Matches, isName] using hnot .name
  have hparenthesis := hnot .parenthesis
  have hcomparator := hnot .comparator
  simp_all [TokenKind.Matches, TokenKind.parentheses, comparatorSlices, startsName, continuesName,
    Char.isAlphanum]

/-- A `!` that is dropped is not followed by `=`. -/
theorem head?_ne_of_none {rest : List Char} (h : lexeme? ('!' :: rest) = none) :
    rest.head? ≠ some '=' := by
  intro hhead
  obtain ⟨more, rfl⟩ := List.head?_eq_some_iff.mp hhead
  have hmatches : TokenKind.comparator.Matches ['!', '='] := by
    simp [TokenKind.Matches, comparatorSlices]
  exact not_matches_of_none h ⟨more, rfl⟩ .comparator hmatches

/-- **A quote that is dropped is not closed on its line.** -/
theorem mem_newline_of_none {body more : List Char}
    (h : lexeme? ('\'' :: (body ++ '\'' :: more)) = none) : '\n' ∈ body := by
  by_contra hnewline
  -- the first of the quotes that follow closes a text
  have hmem : '\'' ∈ body ++ ['\''] := by simp
  obtain ⟨first, tail, hsplit, hfirst⟩ := List.eq_append_cons_of_mem hmem
  have hbody : first <+: body := by
    refine (List.prefix_concat_iff.mp ⟨'\'' :: tail, hsplit.symm⟩).resolve_left ?_
    rintro rfl
    exact hfirst hmem
  have hbegins : '\'' :: (first ++ ['\'']) <+: '\'' :: (body ++ '\'' :: more) := by
    refine List.cons_prefix_cons.mpr ⟨rfl, tail ++ more, ?_⟩
    have htext : first ++ '\'' :: tail ++ more = body ++ ['\''] ++ more := by rw [hsplit]
    simpa using htext
  refine not_matches_of_none h hbegins .quoted ⟨first, rfl, fun c hc => ⟨?_, ?_⟩⟩
  · rintro rfl
    exact hfirst hc
  · rintro rfl
    exact hnewline (hbody.subset hc)

/-! ## All tokens of a text -/

/-- **A text is its tokens and what is dropped between them.** Gaps and slices in turn are
the text, and the tokens are those of the slices in order. In the cut of the text, of
which slices and gaps are the two views, every token is the greedy match of the first kind
that matches where it stands, made from its slice alone, and where a character is dropped
no kind matches. So no letter, digit, underscore or parenthesis and no `<`, `>` or `=` is
dropped, a `!` that is dropped is not followed by `=`, and a quote that is dropped is not
closed before the line or the text ends. -/
theorem tokenize_partition (text : String) :
    (weave (gaps text.toList) ((lexemes text.toList).map Lexeme.slice) = text.toList ∧
      (gaps text.toList).length = (lexemes text.toList).length + 1) ∧
    tokenize text = (lexemes text.toList).map Lexeme.token ∧
    textOf (scan text.toList) = text.toList ∧
    (∀ before l after, scan text.toList = before ++ .lexeme l :: after →
      FirstTakes (l.slice ++ textOf after) l) ∧
    ∀ before c after, scan text.toList = before ++ .dropped c :: after →
      (∀ kind : TokenKind, ¬ kind.MatchesAt (c :: textOf after)) ∧
      continuesName c = false ∧ c ∉ ['(', ')', '<', '>', '='] ∧
      (c = '!' → (textOf after).head? ≠ some '=') ∧
      (c = '\'' → ∀ body more, textOf after = body ++ '\'' :: more → '\n' ∈ body) := by
  refine ⟨⟨?_, length_gapsOf _⟩, rfl, textOf_scan _, fun before l after h => ?_,
    fun before c after h => ?_⟩
  · rw [gaps, lexemes, weave_gapsOf, textOf_scan]
  · exact lexeme?_eq_some_iff.mp (foundAt_of_scan h)
  · have hnone : lexeme? (c :: textOf after) = none := foundAt_of_scan h
    obtain ⟨hname, hsymbol⟩ := not_single_of_none hnone
    refine ⟨lexeme?_eq_none_iff.mp hnone, hname, hsymbol, ?_, ?_⟩
    · rintro rfl
      exact head?_ne_of_none hnone
    · rintro rfl body more hafter
      rw [hafter] at hnone
      exact mem_newline_of_none hnone

end Rulebook
