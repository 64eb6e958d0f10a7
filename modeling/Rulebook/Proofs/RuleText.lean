import Rulebook.Proofs.Number.Whole
import Rulebook.Proofs.Parsing
import Rulebook.Proofs.Token.Spelling

/-!
# Rules as texts

`Formula.text` writes a formula as a rule: conditions as descriptions show them,
connectives between, and parentheses around a right side that is joined itself. Not
every formula can be written so. `Formula.WellFormed` says which can: the fields are
names, the comparators and the values are among those that a text has words for, and
there are no more than `depthLimit` levels.

These are exactly the formulas that texts stand for (`exists_parse_iff_wellFormed`).
Whatever a text is parsed to is well-formed, since each of its parts comes from a
token and each token is spelled. The other way round, a well-formed formula is parsed
from the text that is written for it: cut into tokens, the text is a phrase of the
grammar. Each parenthesis that is open around a place is a level above it, so the limit
on the levels keeps the limit on the parentheses too.
-/

namespace Rulebook

/-! ## Writing rules -/

namespace Formula

/-- The text of a right side: one that is joined itself stands in parentheses. -/
def enclosed : Formula → String → String
  | .condition _, text => text
  | .join _ _ _, text => "(" ++ text ++ ")"

/-- **A formula as a rule.** Chains grow to the left, so a left side needs no
parentheses. -/
def text : Formula → String
  | .condition c => c.description
  | .join op left right => left.text ++ " " ++ op.text ++ " " ++ right.enclosed right.text

end Formula

/-! ## Well-formed formulas -/

/-- The comparators of rule texts. The last two are taken for comparators and mean
nothing. -/
def comparatorTexts : List String := ["<", ">", "<=", ">=", "=", "!=", "==", "=>"]

/-- **Whether a rule text has words for a value**: a whole number that is not negative,
or a text on one line without quotes. -/
def Value.isWellFormed : Value → Bool
  | .number x =>
    match x.toInt? with
    | some n => 0 ≤ n
    | none => false
  | .text s => s.toList.all fun c => c ≠ '\'' ∧ c ≠ '\n'
  | .truth _ => false
  | .null => false

/-- **A condition that can be written.** -/
structure Condition.WellFormed (c : Condition) : Prop where
  /-- The field is a name. -/
  field : isName c.field.toList
  /-- The name does not begin with a connective. -/
  connective : startsConnective c.field.toList = false
  /-- The comparator is that of one of the texts. -/
  comparator : c.comparator ∈ comparatorTexts.map Comparator.ofText
  /-- There are words for the value. -/
  literal : c.literal.isWellFormed

namespace Formula

/-- **A formula of which every part can be written.** -/
def Spelled : Formula → Prop
  | .condition c => c.WellFormed
  | .join op left right => op.isKnown ∧ left.Spelled ∧ right.Spelled

/-- **A well-formed formula**: every part of it can be written, and it has no more
levels than a rule may have. -/
structure WellFormed (f : Formula) : Prop where
  /-- Every part can be written. -/
  spelled : f.Spelled
  /-- There are not too many levels. -/
  depth_le : f.depth ≤ depthLimit

end Formula

/-! ## What is parsed is well-formed -/

theorem toList_mem_comparatorSlices {text : String} (h : text ∈ comparatorTexts) :
    text.toList ∈ comparatorSlices := by
  revert text
  decide

theorem ofText_mem_of_mem_comparatorSlices {slice : List Char} (h : slice ∈ comparatorSlices) :
    Comparator.ofText (String.ofList slice) ∈ comparatorTexts.map Comparator.ofText := by
  refine List.mem_map_of_mem ?_
  revert slice
  decide

/-- A number stands for itself, if it is finite. -/
theorem literalToken_number_iff {x : Binary64} {v : Value} :
    LiteralToken (.number x) v ↔ x.isFinite ∧ v = .number x := by
  constructor
  · rintro (_ | _ | ⟨_, h⟩)
    exact ⟨h, rfl⟩
  · rintro ⟨h, rfl⟩
    exact .number x h

/-- A value that stands for a spelled token can be written, and a document keeps it as
it is. -/
theorem LiteralToken.isWellFormed {slice : List Char} {t : Token} {v : Value}
    (h : LiteralToken t v) (ht : Spells slice t) : v.isWellFormed ∧ v.normal = v := by
  cases ht with
  | @quoted body hbody =>
    have hraw : String.ofList ('\'' :: (body ++ ['\''])) = "'" ++ String.ofList body ++ "'" := by
      rw [← String.toList_inj, toList_quoted, String.toList_ofList, String.toList_ofList]
    rw [literalToken_quotedText_iff, hraw, unquoted_quoted] at h
    subst h
    refine ⟨?_, rfl⟩
    rw [Value.isWellFormed, String.toList_ofList, List.all_eq_true]
    exact fun c hc => decide_eq_true (hbody c hc)
  | digits =>
    obtain ⟨hfinite, rfl⟩ := literalToken_number_iff.mp h
    obtain ⟨n, hn⟩ := Binary64.exists_toInt?_ofNat hfinite
    constructor
    · rw [Value.isWellFormed, hn]
      exact decide_eq_true (Int.natCast_nonneg n)
    · rw [Value.normal_number hfinite, Binary64.unsignedZero_ofNat]
  | _ => cases h

/-- **A row of spelled tokens stands for a formula that can be written**, and a document
keeps it as it is. -/
theorem Reads.spelled {phrase : Phrase} {opened : Nat} {tokens rest : List Token} {f : Formula}
    (h : Reads phrase opened tokens f rest) (htokens : ∀ t ∈ tokens, ∃ slice, Spells slice t) :
    f.Spelled ∧ f.normal = f := by
  induction h with
  | @condition opened field comparator t literal rest hliteral =>
    obtain ⟨_, ht⟩ := htokens t (by simp)
    obtain ⟨_, hfield⟩ := htokens (.identifier field) (by simp)
    obtain ⟨_, hcomparator⟩ := htokens (.comparator comparator) (by simp)
    obtain ⟨hvalue, hnormal⟩ := hliteral.isWellFormed ht
    cases hfield with
    | name hname hconnective =>
      cases hcomparator with
      | @comparator slice hslice =>
        constructor
        · refine ⟨?_, ?_, ofText_mem_of_mem_comparatorSlices hslice, hvalue⟩
          · rwa [String.toList_ofList]
          · rwa [String.toList_ofList]
        · rw [Formula.normal, Condition.normal, hnormal, ← Comparator.ofText_text,
            Comparator.text_ofText]
  | parentheses hopened inner hclosing ih =>
    exact ih (fun t ht => htokens t (List.mem_cons_of_mem _ ht))
  | single first ih => exact ih htokens
  | joined left hop right ihleft ihright =>
    have hknown := Token.isKnown_of_connective? hop
    have hmiddle := (List.suffix_cons _ _).trans left.isSuffix
    obtain ⟨hleft, hleftNormal⟩ := ihleft htokens
    obtain ⟨hright, hrightNormal⟩ := ihright (fun t ht => htokens t (hmiddle.subset ht))
    refine ⟨⟨hknown, hleft, hright⟩, ?_⟩
    rw [Formula.normal, hleftNormal, hrightNormal,
      (Connective.normal_eq_iff _).mpr (Connective.isAlias_of_isKnown hknown)]

/-- **The formula of a text is well-formed.** -/
theorem wellFormed_of_parse {text : String} {f : Formula} (h : parse text = .ok f) :
    f.WellFormed := by
  obtain ⟨hreads, hdepth⟩ := derives_of_parseTokens h
  exact ⟨(hreads.spelled fun _ => exists_spells_of_mem_tokenize).1, hdepth⟩

/-- **A document keeps the formula of a text as it is.** -/
theorem normal_of_parse {text : String} {f : Formula} (h : parse text = .ok f) : f.normal = f :=
  ((derives_of_parseTokens h).1.spelled fun _ => exists_spells_of_mem_tokenize).2

namespace Formula

/-- What can be written is kept by a document. -/
theorem isStorable_of_spelled {f : Formula} (h : f.Spelled) : f.isStorable := by
  induction f with
  | condition c =>
    obtain ⟨text, -, htext⟩ := List.mem_map.mp h.comparator
    have hliteral : c.literal.isStorable := by
      cases hvalue : c.literal with
      | number x =>
        have hwhole := h.literal
        rw [hvalue, Value.isWellFormed] at hwhole
        split at hwhole
        · rename_i n hn
          exact Binary64.isFinite_of_toInt? hn
        · cases hwhole
      | _ => rfl
    rw [isStorable, Condition.isStorable, ← htext, Comparator.isAlias_ofText, hliteral]
    rfl
  | join op left right ihleft ihright =>
    exact isStorable_join_iff.mpr
      ⟨Connective.isAlias_of_isKnown h.1, ihleft h.2.1, ihright h.2.2⟩

end Formula

/-- **The formula of a text is storable.** -/
theorem isStorable_of_parse {text : String} {f : Formula} (h : parse text = .ok f) :
    f.isStorable :=
  Formula.isStorable_of_spelled (wellFormed_of_parse h).spelled

/-! ## What is written is parsed -/

theorem boundary_blank (rest : List Char) : Boundary (' ' :: rest) :=
  boundary_cons (by decide) rest

/-- The word of a connective is its token. -/
theorem exists_token_of_isKnown {op : Connective} (h : op.isKnown) :
    ∃ t, Spells op.text.toList t ∧ t.connective? = some op := by
  cases op with
  | and => exact ⟨.and, .and, rfl⟩
  | or => exact ⟨.or, .or, rfl⟩
  | other text => cases h

/-- **What is shown of a value is a token that stands for it**, but for the sign of a
zero, which is dropped. -/
theorem Value.exists_token_of_display {v : Value} (h : v.isWellFormed) :
    ∃ t, LiteralToken t v.normal ∧
      ∀ rest, Boundary rest → tokensOf (v.display.toList ++ rest) = t :: tokensOf rest := by
  cases v with
  | number x =>
    rw [isWellFormed] at h
    split at h
    · rename_i n hn
      obtain ⟨n, rfl⟩ := Int.eq_ofNat_of_zero_le (of_decide_eq_true h)
      obtain ⟨sign, digits, htext, hsign, hne, hdigits, hdenotes⟩ :=
        Binary64.exists_digits_of_text hn
      have hfinite := Binary64.isFinite_of_toInt? hn
      refine ⟨.number x.unsignedZero, ?_, fun rest hrest => ?_⟩
      · rw [normal_number hfinite]
        exact .number _ (x.isFinite_unsignedZero.trans hfinite)
      · have hcut : tokensOf (digits ++ rest) = .number x.unsignedZero :: tokensOf rest := by
          rw [tokensOf_append (.digits hne hdigits) hrest, hdenotes]
        rw [display, htext]
        obtain rfl | rfl := hsign
        · exact hcut
        · -- nothing begins with a minus sign
          exact (tokensOf_cons rfl).trans hcut
    · cases h
  | text s =>
    rw [isWellFormed, List.all_eq_true] at h
    refine ⟨.quotedText ("'" ++ s ++ "'"), .stripped s, fun rest hrest => ?_⟩
    have hspells := Spells.quoted (fun c hc => of_decide_eq_true (h c hc))
    rw [← toList_quoted, String.ofList_toList] at hspells
    exact tokensOf_append hspells hrest
  | truth b => cases h
  | null => cases h

/-- **What is shown of a condition is a term for it.** -/
theorem Condition.reads_description {c : Condition} (h : c.WellFormed) (opened : Nat)
    {rest : List Char} (hrest : Boundary rest) :
    Reads .term opened (tokensOf (c.description.toList ++ rest)) (.condition c.normal)
      (tokensOf rest) := by
  obtain ⟨t, ht, hcut⟩ := Value.exists_token_of_display h.literal
  have hfield := Spells.name h.field h.connective
  rw [String.ofList_toList] at hfield
  have hcomparator : Spells c.comparator.text.toList (.comparator c.comparator.normal) := by
    obtain ⟨text, hmem, htext⟩ := List.mem_map.mp h.comparator
    have hspells := Spells.comparator (toList_mem_comparatorSlices hmem)
    rw [String.ofList_toList] at hspells
    rwa [← Comparator.ofText_text, ← htext, Comparator.text_ofText]
  have htext : c.description.toList ++ rest = c.field.toList ++ ' ' ::
      (c.comparator.text.toList ++ ' ' :: (c.literal.display.toList ++ rest)) := by
    simp [description]
  rw [htext, tokensOf_append hfield (boundary_blank _), tokensOf_blank,
    tokensOf_append hcomparator (boundary_blank _), tokensOf_blank, hcut rest hrest]
  exact .condition ht

namespace Formula

theorem depth_normal (f : Formula) : f.normal.depth = f.depth := by
  induction f with
  | condition c => rfl
  | join op left right ihleft ihright => rw [normal, depth, depth, ihleft, ihright]

/-- **The text of a formula is an expression for it**, wherever there is room for its
levels. -/
theorem reads_text {f : Formula} (h : f.Spelled) {opened : Nat}
    (hopened : opened + f.depth ≤ depthLimit) {rest : List Char} (hrest : Boundary rest) :
    Reads .expression opened (tokensOf (f.text.toList ++ rest)) f.normal (tokensOf rest) := by
  induction f generalizing opened rest with
  | condition c => exact .single (Condition.reads_description h opened hrest)
  | join op left right ihleft ihright =>
    obtain ⟨hop, hleft, hright⟩ := h
    obtain ⟨t, ht, hconnective⟩ := exists_token_of_isKnown hop
    have hleftDepth := depth_left_lt op left right
    have hrightDepth := depth_right_lt op left right
    have htext : (join op left right).text.toList ++ rest = left.text.toList ++ ' ' ::
        (op.text.toList ++ ' ' :: ((right.enclosed right.text).toList ++ rest)) := by
      simp [text]
    have hjoint : tokensOf (' ' :: (op.text.toList ++ ' ' ::
        ((right.enclosed right.text).toList ++ rest)))
          = t :: tokensOf ((right.enclosed right.text).toList ++ rest) := by
      rw [tokensOf_blank, tokensOf_append ht (boundary_blank _), tokensOf_blank]
    have hroom : opened + left.depth ≤ depthLimit := by omega
    have hfirst := ihleft hleft hroom
      (boundary_blank (op.text.toList ++ ' ' :: ((right.enclosed right.text).toList ++ rest)))
    rw [hjoint] at hfirst
    rw [htext, normal, (Connective.normal_eq_iff op).mpr (Connective.isAlias_of_isKnown hop)]
    refine .joined hfirst hconnective ?_
    cases right with
    | condition c => exact Condition.reads_description hright opened hrest
    | join op' left' right' =>
      -- one more parenthesis is open around the right side, and one level less is below
      have hroom : opened + 1 + (join op' left' right').depth ≤ depthLimit := by omega
      have hboundary : Boundary (')' :: rest) := boundary_cons (by decide) rest
      have hinner := ihright hright hroom hboundary
      have htext : ((join op' left' right').enclosed (join op' left' right').text).toList ++ rest
          = ['('] ++ ((join op' left' right').text.toList ++ ')' :: rest) := by
        simp [enclosed]
      have hopen : lexeme? (['('] ++ ((join op' left' right').text.toList ++ ')' :: rest))
          = some ⟨['('], .leftParen⟩ := rfl
      have hclose : tokensOf (')' :: rest) = .rightParen :: tokensOf rest :=
        tokensOf_append .rightParen hrest
      rw [hclose] at hinner
      rw [htext, tokensOf_of_lexeme? (List.cons_ne_nil _ _) hopen]
      exact .parentheses (by omega) hinner (.token (by decide) (by decide))

/-- **A well-formed formula is parsed from its text**, but for the signs of zeros. -/
theorem parse_text {f : Formula} (h : f.WellFormed) : parse f.text = .ok f.normal := by
  have hroom : 0 + f.depth ≤ depthLimit := (Nat.zero_add f.depth).symm ▸ h.depth_le
  have hreads := reads_text h.spelled hroom boundary_nil
  rw [List.append_nil] at hreads
  refine parseTokens_of_derives ⟨hreads, ?_⟩
  rw [depth_normal]
  exact h.depth_le

/-- **The formulas of texts are the well-formed ones.** Whatever a text is parsed to is
well-formed. A well-formed formula is parsed from the text that is written for it, as a
formula that equals it, and as the very same formula unless a zero in it has a sign,
which no text can give to it. -/
theorem exists_parse_iff_wellFormed :
    (∀ text f, parse text = .ok f → f.WellFormed) ∧
      (∀ f : Formula, f.WellFormed → parse f.text = .ok f.normal ∧ f.normal.same f = true) ∧
      ∀ f : Formula, (∃ text, parse text = .ok f) ↔ f.WellFormed ∧ f.normal = f := by
  refine ⟨fun text f => wellFormed_of_parse, fun f h => ?_, fun f => ⟨?_, ?_⟩⟩
  · exact ⟨parse_text h, (same_normal_iff f).mpr (isStorable_of_spelled h.spelled)⟩
  · rintro ⟨text, h⟩
    exact ⟨wellFormed_of_parse h, normal_of_parse h⟩
  · rintro ⟨h, hnormal⟩
    exact ⟨f.text, (parse_text h).trans (congrArg Except.ok hnormal)⟩

/-- The rule `a == 'x' OR (b_2 <= 30 AND c != '')`. -/
def sample : Formula :=
  .join .or (.condition ⟨"a", .other "==", .text "x"⟩)
    (.join .and (.condition ⟨"b_2", .le, .number (.ofNat 30)⟩) (.condition ⟨"c", .ne, .text ""⟩))

theorem wellFormed_sample : sample.WellFormed where
  spelled := by
    refine ⟨rfl, ⟨by decide, by decide, by decide, by decide⟩, rfl, ?_, ?_⟩
    · exact ⟨by decide, by decide, by decide, by decide +kernel⟩
    · exact ⟨by decide, by decide, by decide, by decide⟩
  depth_le := by decide

/-- The sample is parsed from its text, and its text is a right side in parentheses. -/
theorem parse_sample :
    sample.text = "a == 'x' OR (b_2 <= 30 AND c != '')" ∧ sample.WellFormed ∧
      parse sample.text = .ok sample := by
  obtain ⟨-, hparse, -⟩ := exists_parse_iff_wellFormed
  have hnormal : sample.normal = sample := by decide +kernel
  have htext : sample.text = "a == 'x' OR (b_2 <= 30 AND c != '')" := by decide +kernel
  exact ⟨htext, wellFormed_sample,
    (hparse sample wellFormed_sample).1.trans (congrArg Except.ok hnormal)⟩

end Formula

end Rulebook
