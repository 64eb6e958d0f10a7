import Rulebook.Proofs.Token.Partition

/-!
# Tokens and layout

What stands between the tokens of a text does not matter, as long as it is blank and keeps
them apart. A text is its slices and the gaps between them in turn (`tokenize_partition`);
a layout puts blanks in place of the gaps, none of them empty between two slices
(`IsLayout`). The text with its new gaps has the same tokens (`tokenize_relaid`).

That the slices are found again is not clear from how they were found. In `a=>b` the
comparator is `=>` because of its neighbour, in `ORDER` the name is `DER` because of the `OR`
before it, and a name or a number ends only where something else begins. What carries the
proof is that every slice spells its token, whatever stood beside it (`spells_of_lexeme?`),
and that no token goes on with a blank (`boundary_blank_append`). So the slices could come from
anywhere: each row of tokens that are spelled is found again in every layout
(`scan_weave`).
-/

namespace Rulebook

/-! ## Blanks -/

/-- No name and no number goes on with a blank. -/
theorem continuesName_of_isBlank {c : Char} (h : isBlank c) : continuesName c = false := by
  refine Bool.eq_false_iff.mpr fun hcontinues => ?_
  have hrange : (65 ≤ c.toNat ∧ c.toNat ≤ 90) ∨ (97 ≤ c.toNat ∧ c.toNat ≤ 122) ∨ c.toNat = 95 ∨
      (48 ≤ c.toNat ∧ c.toNat ≤ 57) := by
    rw [continuesName, Char.isAlphanum, Bool.or_right_comm, Bool.or_eq_true] at hcontinues
    obtain hstarts | hdigit := hcontinues
    · have := toNat_of_startsName hstarts
      omega
    · have := toNat_of_isDigit hdigit
      omega
  simp only [isBlank, Bool.or_eq_true, Bool.and_eq_true, decide_eq_true_eq] at h
  omega

/-- **Every token ends before blanks.** -/
theorem boundary_blank_append {gap rest : List Char} (h : ∀ c ∈ gap, isBlank c)
    (hrest : gap = [] → Boundary rest) : Boundary (gap ++ rest) := by
  cases gap with
  | nil => exact hrest rfl
  | cons c gap =>
    have hc := h c List.mem_cons_self
    refine boundary_cons ⟨continuesName_of_isBlank hc, ?_, ?_⟩ _
    all_goals
      rintro rfl
      exact absurd hc (by decide)

/-- **Nothing begins with a blank.** -/
theorem lexeme?_of_isBlank {c : Char} (h : isBlank c) (rest : List Char) :
    lexeme? (c :: rest) = none := by
  have hne (d : Char) (hd : isBlank d = false) : c ≠ d := by
    rintro rfl
    exact Bool.false_ne_true (hd.symm.trans h)
  have hname (hc : continuesName c) : False :=
    Bool.false_ne_true ((continuesName_of_isBlank h).symm.trans hc)
  have hcomparator : comparatorSlice? (c :: rest) = none :=
    comparatorSlice?_eq_none ⟨hne '=' rfl, hne '<' rfl, hne '>' rfl, hne '!' rfl⟩ rest
  rw [lexeme?_of_plain hcomparator (fun _ hc => absurd hc (hne 'A' rfl))
      (fun _ hc => absurd hc (hne 'O' rfl)) ⟨hne '(' rfl, hne ')' rfl⟩,
    if_neg fun hstarts => hname (continuesName_of_startsName hstarts), if_neg (hne '\'' rfl),
    if_neg fun hdigit => hname (continuesName_of_isDigit hdigit)]

/-- **Blanks are dropped one by one.** -/
theorem scan_blank_append {gap : List Char} (h : ∀ c ∈ gap, isBlank c) (rest : List Char) :
    scan (gap ++ rest) = gap.map .dropped ++ scan rest := by
  induction gap with
  | nil => rfl
  | cons c gap ih =>
    obtain ⟨hc, hgap⟩ := List.forall_mem_cons.mp h
    rw [List.cons_append, scan_of_none (lexeme?_of_isBlank hc _), ih hgap]
    rfl

theorem lexemesOf_dropped_append (gap : List Char) (cuts : List Cut) :
    lexemesOf (gap.map .dropped ++ cuts) = lexemesOf cuts := by
  induction gap with
  | nil => rfl
  | cons c gap ih => exact ih

/-- Dropped characters add to the first gap. -/
theorem gapsOf_dropped_append (gap : List Char) {cuts : List Cut} {first : List Char}
    {more : List (List Char)} (h : gapsOf cuts = first :: more) :
    gapsOf (gap.map .dropped ++ cuts) = (gap ++ first) :: more := by
  induction gap with
  | nil => exact h
  | cons c gap ih => rw [List.map_cons, List.cons_append, gapsOf, ih]; rfl

/-- **A blank text has no tokens.** -/
theorem tokenize_of_blank {text : String} (h : ∀ c ∈ text.toList, isBlank c) :
    tokenize text = [] := by
  have hscan := scan_blank_append h []
  rw [List.append_nil] at hscan
  rw [tokenize, lexemes, hscan, lexemesOf_dropped_append]
  rfl

/-! ## Layouts -/

/-- **A layout of some number of slices**: gaps for the places before the first slice,
between two, and after the last. -/
structure IsLayout (slices : Nat) (layout : List (List Char)) : Prop where
  /-- There is a gap for every place. -/
  length_eq : layout.length = slices + 1
  /-- The gaps are blank. -/
  blank : ∀ gap ∈ layout, ∀ c ∈ gap, isBlank c
  /-- Between two slices there is something. -/
  apart : ∀ gap ∈ layout.tail.dropLast, gap ≠ []

theorem IsLayout.exists_cons {slices : Nat} {layout : List (List Char)}
    (h : IsLayout slices layout) : ∃ gap more, layout = gap :: more :=
  List.exists_cons_of_length_eq_add_one h.length_eq

/-- A layout without its first gap is one of the slices but the first. -/
theorem IsLayout.tail {slices : Nat} {gap : List Char} {layout : List (List Char)}
    (h : IsLayout (slices + 1) (gap :: layout)) : IsLayout slices layout where
  length_eq := Nat.succ.inj h.length_eq
  blank := (List.forall_mem_cons.mp h.blank).2
  apart other hother := by
    rw [← List.tail_dropLast] at hother
    exact h.apart other (List.mem_of_mem_tail hother)

/-- **What follows a slice in a layout does not go on with it.** -/
theorem IsLayout.boundary {slices : List (List Char)} {gap : List Char} {layout : List (List Char)}
    (h : IsLayout (slices.length + 1) (gap :: layout)) : Boundary (weave layout slices) := by
  obtain ⟨next, layout, rfl⟩ := h.tail.exists_cons
  have hblank : ∀ c ∈ next, isBlank c := h.tail.blank next List.mem_cons_self
  cases slices with
  | nil =>
    -- the last gap may be empty, and then the text is over
    obtain ⟨_, hlast⟩ := List.length_eq_one_iff.mp h.tail.length_eq
    cases hlast
    exact boundary_blank_append hblank fun _ => boundary_nil
  | cons slice slices =>
    obtain ⟨third, layout, rfl⟩ := h.tail.tail.exists_cons
    have hne : next ≠ [] := h.apart next List.mem_cons_self
    rw [weave, List.append_assoc]
    exact boundary_blank_append hblank fun hnext => absurd hnext hne

/-- **Tokens that are spelled are found again in every layout**, and nothing but the layout is
dropped. -/
theorem scan_weave {ls : List Lexeme} {layout : List (List Char)}
    (hspelled : ∀ l ∈ ls, Spells l.slice l.token) (h : IsLayout ls.length layout) :
    lexemesOf (scan (weave layout (ls.map Lexeme.slice))) = ls ∧
      gapsOf (scan (weave layout (ls.map Lexeme.slice))) = layout := by
  induction ls generalizing layout with
  | nil =>
    obtain ⟨gap, rfl⟩ := List.length_eq_one_iff.mp h.length_eq
    have hscan : scan (weave [gap] []) = gap.map .dropped ++ [] :=
      scan_blank_append (h.blank gap List.mem_cons_self) []
    rw [List.map_nil, hscan, lexemesOf_dropped_append, gapsOf_dropped_append gap rfl,
      List.append_nil]
    exact ⟨rfl, rfl⟩
  | cons l ls ih =>
    obtain ⟨gap, layout, rfl⟩ := h.exists_cons
    obtain ⟨hl, hls⟩ := List.forall_mem_cons.mp hspelled
    obtain ⟨hlexemes, hgaps⟩ := ih hls h.tail
    have hlayout : IsLayout ((ls.map Lexeme.slice).length + 1) (gap :: layout) := by
      rwa [List.length_map]
    have hscan : scan (weave (gap :: layout) ((l :: ls).map Lexeme.slice))
        = gap.map .dropped ++ .lexeme l :: scan (weave layout (ls.map Lexeme.slice)) := by
      rw [List.map_cons, weave, List.append_assoc,
        scan_blank_append (h.blank gap List.mem_cons_self),
        scan_of_lexeme? hl.ne_nil (lexeme?_of_spells hl hlayout.boundary)]
    rw [hscan, lexemesOf_dropped_append, gapsOf_dropped_append gap rfl, lexemesOf, hlexemes,
      hgaps, List.append_nil]
    exact ⟨rfl, rfl⟩

/-- **A text with other gaps** around its slices; with its own gaps it would be itself
(`tokenize_partition`). -/
def relaid (layout : List (List Char)) (text : String) : String :=
  String.ofList (weave layout ((lexemes text.toList).map Lexeme.slice))

/-- **Layout does not matter.** With blanks in place of its gaps, and some between every two
slices, a text has the same tokens. Its slices are found again one by one, so it can be laid
out anew as often as one likes, and nothing but the blanks is dropped. -/
theorem tokenize_relaid {text : String} {layout : List (List Char)}
    (h : IsLayout (lexemes text.toList).length layout) :
    tokenize (relaid layout text) = tokenize text ∧
      lexemes (relaid layout text).toList = lexemes text.toList ∧
      gaps (relaid layout text).toList = layout := by
  have hspelled : ∀ l ∈ lexemes text.toList, Spells l.slice l.token :=
    fun _ => spells_of_mem_scanFrom
  have htext : (relaid layout text).toList
      = weave layout ((lexemes text.toList).map Lexeme.slice) := String.toList_ofList
  obtain ⟨hlexemes, hgaps⟩ := scan_weave hspelled h
  rw [tokenize, tokenize, lexemes, gaps, htext, hlexemes]
  exact ⟨rfl, rfl, hgaps⟩

/-- Tokens without anything between them. -/
def gluedText : String := "ORDER=>'a  b'12x"

/-- A layout that spreads them over several lines. -/
def spreadLayout : List (List Char) :=
  [[], [' '], ['\n'], ['\t', ' '], ['\r', '\n'], ['\u3000'], [' ']]

/-- What was told apart without blanks is told apart with them. -/
theorem tokenize_relaid_gluedText :
    IsLayout (lexemes gluedText.toList).length spreadLayout ∧
      relaid spreadLayout gluedText = "OR DER\n=>\t 'a  b'\r\n12\u3000x " ∧
      tokenize (relaid spreadLayout gluedText) = tokenize gluedText := by
  have hblank : ∀ gap ∈ spreadLayout, gap.all isBlank := by decide
  have hlayout : IsLayout (lexemes gluedText.toList).length spreadLayout :=
    ⟨by decide, fun gap hgap => List.all_eq_true.mp (hblank gap hgap), by decide⟩
  exact ⟨hlayout, by decide, (tokenize_relaid hlayout).1⟩

-- blanks between slices cannot be left out
example : tokenize "a b" ≠ tokenize "ab" := by
  decide

end Rulebook
