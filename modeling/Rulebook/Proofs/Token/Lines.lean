import Rulebook.Proofs.Token.Partition

/-!
# Tokens and lines

No token goes over the end of a line: no kind of token matches anything with a line break in
it (`TokenKind.Matches.not_mem_newline`). What the lexer finds at a place depends only on the
beginnings that some kind matches, so it is decided by the rest of the line alone
(`lexeme?_append_newline`) – even if a quote is open there that the next line would close.

A text is therefore cut line by line: the cut of two texts with a line break between them is
the cut of the one, the line break, and the cut of the other (`scan_append_newline`), and
its tokens are those of the one and then those of the other (`tokenize_append_newline`).
-/

namespace Rulebook

/-- What does not hold a character is a beginning of a text exactly if it is one of the part
before that character. -/
theorem prefix_append_cons_iff {α : Type} {x : α} {part before after : List α} (h : x ∉ part) :
    part <+: before ++ x :: after ↔ part <+: before := by
  constructor
  · intro hpart
    obtain hpart | ⟨more, rfl⟩ :=
      List.prefix_or_prefix_of_prefix hpart (List.prefix_append before (x :: after))
    · exact hpart
    -- what goes on after the part before the character would begin with the character
    cases more with
    | nil => simp
    | cons y more =>
      rw [List.prefix_append_right_inj, List.cons_prefix_cons] at hpart
      simp [hpart.1] at h
  · exact fun hpart => hpart.trans (List.prefix_append before _)

/-- **No token goes over the end of a line.** -/
theorem TokenKind.Matches.not_mem_newline {kind : TokenKind} {slice : List Char}
    (h : kind.Matches slice) : '\n' ∉ slice := by
  cases kind with
  | comparator => exact (by decide : ∀ slice ∈ comparatorSlices, '\n' ∉ slice) slice h
  | connective => exact (by decide : ∀ slice ∈ connectiveWords, '\n' ∉ slice) slice h
  | parenthesis => exact (by decide : ∀ slice ∈ parentheses, '\n' ∉ slice) slice h
  | name =>
    cases slice with
    | nil => simp
    | cons c more =>
      obtain ⟨hstarts, hmore⟩ := isName_cons_iff.mp h
      rintro (_ | ⟨_, hmem⟩)
      · exact absurd hstarts (by decide)
      · exact absurd (hmore '\n' hmem) (by decide)
  | quoted =>
    obtain ⟨body, rfl, hbody⟩ := h
    intro hmem
    simp at hmem
    exact (hbody '\n' hmem).2 rfl
  | digits => exact fun hmem => absurd (h.2 '\n' hmem) (by decide)

/-- **What the lexer finds is decided by the line.** -/
theorem lexeme?_append_newline (line rest : List Char) :
    lexeme? (line ++ '\n' :: rest) = lexeme? line :=
  lexeme?_congr fun _ _ hfits => prefix_append_cons_iff hfits.not_mem_newline

/-- **A text is cut line by line.** -/
theorem scan_append_newline (text rest : List Char) :
    scan (text ++ '\n' :: rest) = scan text ++ .dropped '\n' :: scan rest := by
  induction text using piece_induction with
  | nil => exact scan_of_none (lexeme?_append_newline [] rest)
  | lexeme l more h ih =>
    have hne := Lexeme.slice_ne_nil h
    have h' : lexeme? (l.slice ++ (more ++ '\n' :: rest)) = some l := by
      rw [← List.append_assoc, lexeme?_append_newline, h]
    rw [List.append_assoc, scan_of_lexeme? hne h', ih, scan_of_lexeme? hne h, List.cons_append]
  | dropped c more h ih =>
    have h' : lexeme? (c :: (more ++ '\n' :: rest)) = none := by
      rw [← List.cons_append, lexeme?_append_newline, h]
    rw [List.cons_append, scan_of_none h', ih, scan_of_none h, List.cons_append]

theorem lexemesOf_append (cuts more : List Cut) :
    lexemesOf (cuts ++ more) = lexemesOf cuts ++ lexemesOf more := by
  induction cuts with
  | nil => rfl
  | cons cut cuts ih => cases cut <;> simp [lexemesOf, ih]

/-- **A line break is always a boundary between tokens**: the tokens of two texts with a
line break between them are those of the one and then those of the other. -/
theorem tokenize_append_newline (a b : String) :
    tokenize (a ++ "\n" ++ b) = tokenize a ++ tokenize b := by
  have htext : (a ++ "\n" ++ b).toList = a.toList ++ '\n' :: b.toList := by simp
  simp only [tokenize, lexemes, htext, scan_append_newline, lexemesOf_append, List.map_append]
  rfl

-- the quote of the first line is not closed by the one of the second
example : tokenize "'a\nb'" = [.identifier "a", .identifier "b"] := by
  decide

end Rulebook
