import Mathlib.Data.List.Forall2
import Rulebook.Combination
import Rulebook.Evaluation
import Rulebook.Proofs.RuleText
import Rulebook.Proofs.Token.Layout

/-!
# Combined rules

Of several rule texts only the first and the last leave a trace in the result, though all
that count have to be rules. `combine_joinsEnds` says what comes out for every list of texts:
the fault of the first text that is no rule, or else what the ends of the row of formulas make
(`JoinsEnds`), which holds where both ends hold.

The texts need not all be kept for that. One pass is enough that has two places for formulas
and overwrites the second (`Ends`): after some texts the places hold the ends of the formulas
read so far (`Ends.joined_foldl_add`), so the pass gives the combination
(`combine_eq_foldlM`).

What is known of the formulas of texts carries over to a combination, which is the formula of
one text or joins those of two (`combine_cases`): it has one level more at most, and a
document keeps it as it is.
-/

namespace Rulebook

/-! ## Reading a row -/

section Rows

variable {α β ε : Type} {read : α → Except ε β} {row : List α}

/-- **A row is read** if each item of it is. -/
theorem mapM_eq_ok_iff {results : List β} :
    row.mapM read = .ok results ↔ List.Forall₂ (fun x y => read x = .ok y) row results := by
  induction row generalizing results with
  | nil =>
    rw [List.mapM_nil, List.forall₂_nil_left_iff]
    exact ⟨fun h => (Except.ok.inj h).symm, fun h => h ▸ rfl⟩
  | cons x row ih =>
    rw [List.mapM_cons, List.forall₂_cons_left_iff]
    constructor
    · intro h
      cases hx : read x with
      | error fault => rw [hx] at h; cases h
      | ok y =>
        cases hrow : row.mapM read with
        | error fault => rw [hx, hrow] at h; cases h
        | ok more =>
          rw [hx, hrow] at h
          exact ⟨y, more, rfl, ih.mp hrow, (Except.ok.inj h).symm⟩
    · rintro ⟨y, more, hx, hmore, rfl⟩
      rw [hx, ih.mpr hmore]
      rfl

/-- **The first item that cannot be read** decides the fault. -/
theorem mapM_eq_error_iff {fault : ε} :
    row.mapM read = .error fault ↔ ∃ before x after, row = before ++ x :: after ∧
      (∀ y ∈ before, ∃ result, read y = .ok result) ∧ read x = .error fault := by
  induction row with
  | nil => exact iff_of_false (by simp [pure, Except.pure]) (by simp)
  | cons x row ih =>
    rw [List.mapM_cons]
    cases hx : read x with
    | error fault' =>
      constructor
      · intro h
        cases h
        exact ⟨[], x, row, rfl, by simp, hx⟩
      · rintro ⟨_ | ⟨y, before⟩, z, after, hrow, hbefore, hz⟩
        · cases hrow
          cases hx.symm.trans hz
          rfl
        · cases hrow
          obtain ⟨result, hresult⟩ := hbefore x List.mem_cons_self
          cases hx.symm.trans hresult
    | ok y =>
      have hmore : (do let more ← row.mapM read; return y :: more) = .error fault
          ↔ row.mapM read = .error fault := by
        cases row.mapM read <;> simp [bind, Except.bind, pure, Except.pure]
      refine hmore.trans (ih.trans ?_)
      constructor
      · rintro ⟨before, z, after, rfl, hbefore, hz⟩
        exact ⟨x :: before, z, after, rfl, List.forall_mem_cons.mpr ⟨⟨y, hx⟩, hbefore⟩, hz⟩
      · rintro ⟨_ | ⟨w, before⟩, z, after, hrow, hbefore, hz⟩
        · cases hrow
          cases hx.symm.trans hz
        · cases hrow
          exact ⟨before, z, after, rfl, (List.forall_mem_cons.mp hbefore).2, hz⟩

/-- Whatever has been read comes from an item of the row. -/
theorem exists_of_mem_right {R : α → β → Prop} {results : List β} (h : List.Forall₂ R row results)
    {y : β} (hy : y ∈ results) : ∃ x ∈ row, R x y := by
  induction h with
  | nil => cases hy
  | cons hfirst _ ih =>
    obtain rfl | hy := List.mem_cons.mp hy
    · exact ⟨_, List.mem_cons_self, hfirst⟩
    · obtain ⟨x, hx, hxy⟩ := ih hy
      exact ⟨x, List.mem_cons_of_mem _ hx, hxy⟩

end Rows

/-! ## The ends of a row -/

/-- **What the ends of a row of formulas make**: nothing, a formula that is both ends, or two
that are joined by `AND`. -/
inductive JoinsEnds : List Formula → Option Formula → Prop where
  /-- A row without formulas has no ends. -/
  | nothing : JoinsEnds [] none
  /-- A formula alone is both ends. -/
  | alone (f : Formula) : JoinsEnds [f] (some f)
  /-- What stands between two ends leaves no trace. -/
  | ends (first : Formula) (between : List Formula) (last : Formula) :
    JoinsEnds (first :: (between ++ [last])) (some (.join .and first last))

theorem joinsEnds_iff {formulas : List Formula} {result : Option Formula} :
    JoinsEnds formulas result ↔ joinEnds formulas = result := by
  constructor
  · intro h
    cases h with
    | nothing => rfl
    | alone f => rfl
    | ends first between last => rw [joinEnds, List.getLast?_concat]
  · rintro rfl
    cases formulas with
    | nil => exact .nothing
    | cons first more =>
      obtain rfl | ⟨between, last, rfl⟩ := more.eq_nil_or_concat'
      · exact .alone first
      · rw [joinEnds, List.getLast?_concat]
        exact .ends first between last

/-- **Joined ends hold where both ends hold.** -/
theorem JoinsEnds.holds {formulas : List Formula} {result : Option Formula}
    (h : JoinsEnds formulas result) (record : Record) :
    ruleHolds result record
      = (ruleHolds formulas.head? record && ruleHolds formulas.getLast? record) := by
  cases h with
  | nothing => rfl
  | alone f => exact (Bool.and_self _).symm
  | ends first between last =>
    rw [← List.cons_append, List.getLast?_concat, List.cons_append, List.head?_cons]
    rfl

theorem combine_eq_ok_iff {rules : List String} {result : Option Formula} :
    combine rules = .ok result ↔ ∃ formulas,
      List.Forall₂ (fun text f => parse text = .ok f) (spoken rules) formulas ∧
        JoinsEnds formulas result := by
  simp only [← mapM_eq_ok_iff, joinsEnds_iff]
  rw [combine]
  cases (spoken rules).mapM parse <;> simp [bind, Except.bind, pure, Except.pure]

theorem combine_eq_error_iff {rules : List String} {fault : Malformed} :
    combine rules = .error fault ↔ ∃ before text after, spoken rules = before ++ text :: after ∧
      (∀ earlier ∈ before, ∃ f, parse earlier = .ok f) ∧ parse text = .error fault := by
  rw [← mapM_eq_error_iff, combine]
  cases (spoken rules).mapM parse <;> simp [bind, Except.bind, pure, Except.pure]

/-! ## The formula of a combination -/

variable {rules : List String} {f : Formula}

/-- **What a combination is made of**: the formula of one text, or those of two texts
that are joined. -/
theorem combine_cases (h : combine rules = .ok (some f)) :
    (∃ text, parse text = .ok f) ∨
      ∃ text text' first last, parse text = .ok first ∧ parse text' = .ok last ∧
        f = .join .and first last := by
  obtain ⟨formulas, hparsed, hends⟩ := combine_eq_ok_iff.mp h
  cases hends with
  | alone f =>
    obtain ⟨text, -, hparse⟩ := exists_of_mem_right hparsed List.mem_cons_self
    exact .inl ⟨text, hparse⟩
  | ends first between last =>
    obtain ⟨text, -, hfirst⟩ := exists_of_mem_right hparsed List.mem_cons_self
    obtain ⟨text', -, hlast⟩ := exists_of_mem_right hparsed
      (List.mem_cons_of_mem first (List.mem_append_right between List.mem_cons_self))
    exact .inr ⟨text, text', first, last, hfirst, hlast, rfl⟩

/-- **The formula of several texts is storable.** -/
theorem isStorable_of_combine (h : combine rules = .ok (some f)) : f.isStorable := by
  obtain ⟨text, hparse⟩ | ⟨text, text', first, last, hfirst, hlast, rfl⟩ := combine_cases h
  · exact isStorable_of_parse hparse
  · exact Formula.isStorable_join_iff.mpr
      ⟨rfl, isStorable_of_parse hfirst, isStorable_of_parse hlast⟩

/-- A document keeps the formula of several texts as it is. -/
theorem normal_of_combine (h : combine rules = .ok (some f)) : f.normal = f := by
  obtain ⟨text, hparse⟩ | ⟨text, text', first, last, hfirst, hlast, rfl⟩ := combine_cases h
  · exact normal_of_parse hparse
  · rw [Formula.normal, normal_of_parse hfirst, normal_of_parse hlast]
    rfl

/-- The formula of several texts has one level more at most than that of one. -/
theorem depth_le_of_combine (h : combine rules = .ok (some f)) : f.depth ≤ depthLimit + 1 := by
  obtain ⟨text, hparse⟩ | ⟨text, text', first, last, hfirst, hlast, rfl⟩ := combine_cases h
  · exact Nat.le_succ_of_le (wellFormed_of_parse hparse).depth_le
  · have hfirst := (wellFormed_of_parse hfirst).depth_le
    have hlast := (wellFormed_of_parse hlast).depth_le
    rw [Formula.depth]
    omega

/-! ## One pass -/

/-- **Two places** for the ends of the formulas that have been read so far. -/
structure Ends where
  /-- The first formula. -/
  first : Option Formula
  /-- The last formula, if it is not the first. -/
  last : Option Formula

namespace Ends

/-- Both places before anything is read. -/
def empty : Ends := ⟨none, none⟩

/-- One formula more: it takes the first place if that is free, else the last. -/
def add (ends : Ends) (f : Formula) : Ends :=
  match ends.first with
  | none => { ends with first := some f }
  | some _ => { ends with last := some f }

/-- One text more, which is passed over if nothing is in it. -/
def read (ends : Ends) (text : String) : Except Malformed Ends :=
  if text = "" then .ok ends else (parse text).map ends.add

/-- What stands in the places, joined. -/
def joined (ends : Ends) : Option Formula :=
  match ends.last with
  | some last => ends.first.map fun first => .join .and first last
  | none => ends.first

/-- Once the first place is taken, the last one has what came last. -/
theorem foldl_add (first : Formula) (last : Option Formula) (more : List Formula) :
    more.foldl add ⟨some first, last⟩ = ⟨some first, more.getLast?.or last⟩ := by
  induction more generalizing last with
  | nil => rfl
  | cons f more ih =>
    rw [List.foldl_cons, show add ⟨some first, last⟩ f = ⟨some first, some f⟩ from rfl, ih,
      List.getLast?_cons]
    cases more.getLast? <;> rfl

/-- **After a row of formulas the places hold its ends.** -/
theorem joined_foldl_add (formulas : List Formula) :
    (formulas.foldl add .empty).joined = joinEnds formulas := by
  cases formulas with
  | nil => rfl
  | cons first more =>
    rw [List.foldl_cons, show add .empty first = ⟨some first, none⟩ from rfl, foldl_add,
      Option.or_none, joinEnds]
    cases more.getLast? <;> rfl

/-- **Reading texts into the places** is reading those that count, and then adding formula by
formula. -/
theorem foldlM_read (rules : List String) (ends : Ends) :
    rules.foldlM read ends
      = ((spoken rules).mapM parse).map fun formulas => formulas.foldl add ends := by
  induction rules generalizing ends with
  | nil => rfl
  | cons text rules ih =>
    rw [List.foldlM_cons, read]
    by_cases htext : text = ""
    · rw [if_pos htext, spoken, List.filter_cons_of_neg (by simp [htext])]
      exact ih ends
    · rw [if_neg htext, spoken, List.filter_cons_of_pos (by simp [htext]), List.mapM_cons]
      cases parse text with
      | error fault => rfl
      | ok f =>
        show rules.foldlM read (ends.add f) = _
        rw [ih, spoken]
        cases (rules.filter (· ≠ "")).mapM parse <;> rfl

end Ends

theorem combine_eq_foldlM (rules : List String) :
    combine rules = (rules.foldlM Ends.read .empty).map Ends.joined := by
  rw [Ends.foldlM_read, combine]
  cases (spoken rules).mapM parse with
  | error fault => rfl
  | ok formulas => exact congrArg Except.ok (Ends.joined_foldl_add formulas).symm

/-! ## Every list of texts -/

/-- **Blanks are no rule.** -/
theorem parse_of_blank {text : String} (h : ∀ c ∈ text.toList, isBlank c) :
    parse text = .error .endsBeforeTerm := by
  rw [parse, tokenize_of_blank h]
  rfl

/-- **A combination joins the ends of its row.** Texts of length zero are left out, and no
others – not even blank ones, which are no rules. If one of the texts that are left is no rule,
the first of these decides the fault, whether it stands at an end or not. Otherwise the result
is nothing, the one formula there is, or the first and the last one joined by `AND`, so on
every record it says what both ends say. One pass with two places finds it. -/
theorem combine_joinsEnds (rules : List String) :
    (∀ result, combine rules = .ok result ↔ ∃ formulas,
      List.Forall₂ (fun text f => parse text = .ok f) (rules.filter (· ≠ "")) formulas ∧
        JoinsEnds formulas result) ∧
    (∀ fault, combine rules = .error fault ↔ ∃ before text after,
      rules.filter (· ≠ "") = before ++ text :: after ∧
        (∀ earlier ∈ before, ∃ f, parse earlier = .ok f) ∧ parse text = .error fault) ∧
    (∀ text ∈ rules, text ≠ "" → (∀ c ∈ text.toList, isBlank c) →
      parse text = .error .endsBeforeTerm ∧ ∃ fault, combine rules = .error fault) ∧
    (∀ formulas result, JoinsEnds formulas result → ∀ record, ruleHolds result record
      = (ruleHolds formulas.head? record && ruleHolds formulas.getLast? record)) ∧
    combine rules = (rules.foldlM Ends.read .empty).map Ends.joined := by
  refine ⟨fun _ => combine_eq_ok_iff, fun _ => combine_eq_error_iff,
    fun text htext hne hblank => ?_, fun _ _ hends => hends.holds, combine_eq_foldlM rules⟩
  have hparse := parse_of_blank hblank
  refine ⟨hparse, ?_⟩
  cases hcombine : combine rules with
  | error fault => exact ⟨fault, rfl⟩
  | ok result =>
    -- the blank text would have a formula
    obtain ⟨formulas, hparsed, -⟩ := combine_eq_ok_iff.mp hcombine
    have hspoken : text ∈ spoken rules := List.mem_filter.mpr ⟨htext, decide_eq_true hne⟩
    obtain ⟨f, -, hf⟩ := exists_of_mem_right (List.Forall₂.flip hparsed) hspoken
    cases hparse.symm.trans hf

-- what would be left out of the result, and what is blank, still has to be a rule
example : combine ["a = 'x'", "", "b =", " ", "c = 'z'"]
    = .error (.endsBeforeLiteral "b" .eq) := by
  decide

end Rulebook
