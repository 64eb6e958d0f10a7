import Rulebook.Evaluation
import Rulebook.Proofs.Number.Rounding

/-!
# What a document keeps of a formula

A document cannot hold everything that a formula can. It has no sign on a
zero, no number that is not finite, and no way to tell a comparator that was
made up from a known one of the same text. The **normal form** of a formula is
what is left: `Formula.normal` takes the sign off a zero, puts `null` for what
is not finite, and takes an operator for the one its text names. It goes
through the formula node by node, so fields, texts, truth values and the shape
stay as they are.

`Formula.isStorable` says of which formulas nothing is lost, and
`same_normal_iff` that these are exactly the ones that equal their normal
form. Nothing of this changes a verdict: a comparison only looks at where its
numbers stand (`holds_normal`), so a storable formula and its normal form hold
on the same records.
-/

namespace Rulebook

/-! ## Numbers -/

theorem Magnitude.ext_steps {m n : Magnitude} (h : m.steps = n.steps) : m = n := by
  cases m
  cases n
  cases h
  rfl

namespace Binary64

/-- **A number without the sign of a zero.** -/
def unsignedZero (x : Binary64) : Binary64 := if x.position = some 0 then zero else x

/-- A zero without its sign stands where it stood. -/
@[simp] theorem position_unsignedZero (x : Binary64) : x.unsignedZero.position = x.position := by
  unfold unsignedZero
  split
  · rename_i h
    rw [h]
    rfl
  · rfl

/-- What can be told from where a number stands can be told without the sign of
a zero. -/
theorem order_unsignedZero_left (x y : Binary64) : x.unsignedZero.order y = x.order y := by
  rw [order, order, position_unsignedZero]

theorem order_unsignedZero_right (x y : Binary64) : x.order y.unsignedZero = x.order y := by
  rw [order, order, position_unsignedZero]

theorem same_unsignedZero_right (x y : Binary64) : x.same y.unsignedZero = x.same y := by
  rw [same, same, order_unsignedZero_right]

theorem isSome_position_of_isFinite {x : Binary64} (h : x.isFinite) : x.position.isSome := by
  cases x with
  | finite negative m => rfl
  | _ => cases h

/-- A number that stands somewhere is itself without the sign of a zero. -/
theorem same_unsignedZero {x : Binary64} (h : x.position.isSome) : x.unsignedZero.same x := by
  obtain ⟨p, hp⟩ := Option.isSome_iff_exists.mp h
  rw [same, order_unsignedZero_left, order, hp]
  simp

/-- An exact quotient is rounded to the number it is. -/
theorem nearest_steps_mul (negative : Bool) (m : Magnitude) {den : Nat} (hden : 0 < den) :
    nearest negative (m.steps * den) den = .finite negative m := by
  have hsteps := nearestSteps_mul_self hden m.aligned
  have hlt : nearestSteps (m.steps * den) den < stepsLimit := by
    rw [hsteps]
    exact m.bounded
  rw [nearest, dif_pos hlt]
  exact congrArg (finite negative) (Magnitude.ext_steps hsteps)

theorem finite_eq_zero {m : Magnitude} (h : m.steps = 0) : finite false m = zero :=
  congrArg (finite false) (Magnitude.ext_steps h)

/-- A finite number stands at zero exactly if its magnitude is zero. -/
theorem position_finite_eq_zero_iff {negative : Bool} {m : Magnitude} :
    (finite negative m).position = some 0 ↔ m.steps = 0 := by
  cases negative with
  | false =>
    rw [position, if_neg Bool.false_ne_true, Option.some_inj]
    omega
  | true =>
    rw [position, if_pos rfl, Option.some_inj]
    omega

/-- An infinity does not stand at zero. -/
theorem position_infinite_ne_zero (negative : Bool) : (infinite negative).position ≠ some 0 := by
  have hpos := stepsLimit_pos
  cases negative with
  | false =>
    rw [position, if_neg Bool.false_ne_true, Ne, Option.some_inj]
    omega
  | true =>
    rw [position, if_pos rfl, Ne, Option.some_inj]
    omega

/-- **A whole number is the number of its integer**, but for the sign of a
zero. -/
theorem ofInt_of_toInt? {x : Binary64} {n : Int} (h : x.toInt? = some n) :
    ofInt n = x.unsignedZero := by
  cases x with
  | nan => cases h
  | infinite negative => cases h
  | finite negative m =>
    rw [toInt?] at h
    split at h
    · rename_i hwhole
      have hsteps : m.steps / stepsPerUnit * stepsPerUnit = m.steps :=
        Nat.div_mul_cancel (Nat.dvd_of_mod_eq_zero hwhole)
      have hn : n.natAbs = m.steps / stepsPerUnit := by
        cases h
        cases negative
        · exact Int.natAbs_natCast _
        · exact (Int.natAbs_neg _).trans (Int.natAbs_natCast _)
      have hofInt : ofInt n = .finite (decide (n < 0)) m := by
        have hnearest := nearest_steps_mul (decide (n < 0)) m Nat.one_pos
        rwa [Nat.mul_one, ← hsteps, ← hn] at hnearest
      rw [hofInt, unsignedZero]
      by_cases hzero : m.steps = 0
      · have hn0 : n = 0 := by rw [hzero, Nat.zero_div] at hn; omega
        rw [if_pos (position_finite_eq_zero_iff.mpr hzero), hn0]
        exact finite_eq_zero hzero
      · have hpos : 0 < m.steps / stepsPerUnit := by
          refine Nat.pos_of_ne_zero (fun h0 => hzero ?_)
          rw [← hsteps, h0, Nat.zero_mul]
        rw [if_neg (fun hposition => hzero (position_finite_eq_zero_iff.mp hposition))]
        -- the sign is read off the integer, which is not zero here
        have hsign : decide (n < 0) = negative := by
          have hvalue := Option.some.inj h
          cases negative with
          | false =>
            rw [if_neg Bool.false_ne_true] at hvalue
            exact decide_eq_false (by omega)
          | true =>
            rw [if_pos rfl] at hvalue
            exact decide_eq_true (by omega)
        rw [hsign]
    · cases h

/-- What stands at zero is the integer zero. -/
theorem toInt?_of_position {x : Binary64} (h : x.position = some 0) : x.toInt? = some 0 := by
  cases x with
  | nan => cases h
  | infinite negative => exact absurd h (position_infinite_ne_zero negative)
  | finite negative m =>
    rw [toInt?, position_finite_eq_zero_iff.mp h, Nat.zero_mod, if_pos rfl, Nat.zero_div]
    cases negative <;> rfl

/-- What is not the integer zero has no sign to lose. -/
theorem unsignedZero_of_toInt? {x : Binary64} (h : x.toInt? ≠ some 0) : x.unsignedZero = x :=
  if_neg (fun hposition => h (toInt?_of_position hposition))

theorem isFinite_of_toInt? {x : Binary64} {n : Int} (h : x.toInt? = some n) : x.isFinite := by
  cases x with
  | finite negative m => rfl
  | _ => cases h

theorem toInt?_unsignedZero (x : Binary64) : x.unsignedZero.toInt? = x.toInt? := by
  unfold unsignedZero
  split
  · rename_i h
    rw [toInt?_of_position h]
    exact toInt?_of_position rfl
  · rfl

@[simp] theorem isFinite_unsignedZero (x : Binary64) : x.unsignedZero.isFinite = x.isFinite := by
  unfold unsignedZero
  split
  · rename_i h
    exact (isFinite_of_toInt? (toInt?_of_position h)).symm
  · rfl

end Binary64

/-! ## Values -/

namespace Value

/-- **What a document keeps of a value.** -/
def normal : Value → Value
  | .number x => if x.isFinite then .number x.unsignedZero else .null
  | v => v

/-- Whether a document keeps a value as it is. -/
def isStorable : Value → Bool
  | .number x => x.isFinite
  | _ => true

theorem normal_number {x : Binary64} (h : x.isFinite) :
    (number x).normal = number x.unsignedZero :=
  if_pos h

theorem normal_number_of_not {x : Binary64} (h : ¬ x.isFinite) : (number x).normal = null :=
  if_neg h

/-- **The three ways a number is written**: as an integer if it is one and not
too large, as it is if it is finite, and else as `null`. -/
theorem numberDocument_cases (x : Binary64) :
    (∃ n, x.toInt? = some n ∧ numberDocument x = .number (.integer n)) ∨
      (x.isFinite ∧ x.toInt? ≠ some 0 ∧ numberDocument x = .number (.real x)) ∨
      (¬ x.isFinite ∧ numberDocument x = .null) := by
  unfold numberDocument
  cases h : x.toInt? with
  | some n =>
    by_cases hn : -integerLimit < n ∧ n < integerLimit
    · exact .inl ⟨n, rfl, if_pos hn⟩
    · refine .inr (.inl ⟨Binary64.isFinite_of_toInt? h, ?_, if_neg hn⟩)
      rintro h0
      cases h0
      exact hn (by decide)
  | none =>
    by_cases hx : x.isFinite
    · exact .inr (.inl ⟨hx, by simp, if_pos hx⟩)
    · exact .inr (.inr ⟨hx, if_neg hx⟩)

/-- **What is read from the document of a value is its normal form.** -/
theorem ofDocument_toDocument (v : Value) : ofDocument v.toDocument = .ok v.normal := by
  cases v with
  | number x =>
    show ofDocument (numberDocument x) = _
    obtain ⟨n, hn, hdoc⟩ | ⟨hx, hn, hdoc⟩ | ⟨hx, hdoc⟩ := numberDocument_cases x
    · rw [hdoc, normal_number (Binary64.isFinite_of_toInt? hn), ← Binary64.ofInt_of_toInt? hn]
      rfl
    · rw [hdoc, normal_number hx, Binary64.unsignedZero_of_toInt? hn]
      rfl
    · rw [hdoc, normal_number_of_not hx]
      rfl
  | text s => rfl
  | truth b => rfl
  | null => rfl

/-- A value and its normal form have the same document. -/
theorem toDocument_normal (v : Value) : v.normal.toDocument = v.toDocument := by
  cases v with
  | number x =>
    by_cases hx : x.isFinite
    · rw [normal_number hx]
      show numberDocument _ = numberDocument _
      rw [numberDocument, numberDocument, Binary64.toInt?_unsignedZero,
        Binary64.isFinite_unsignedZero]
      by_cases hzero : x.toInt? = some 0
      · rw [hzero]
        rfl
      · rw [Binary64.unsignedZero_of_toInt? hzero]
    · rw [normal_number_of_not hx]
      obtain ⟨n, hn, -⟩ | ⟨hx', -⟩ | ⟨-, hdoc⟩ := numberDocument_cases x
      · exact absurd (Binary64.isFinite_of_toInt? hn) hx
      · exact absurd hx' hx
      · exact hdoc.symm
  | text s => rfl
  | truth b => rfl
  | null => rfl

/-- A value equals its normal form exactly if it is storable. -/
theorem same_normal_iff (v : Value) : v.normal.same v = true ↔ v.isStorable = true := by
  cases v with
  | number x =>
    by_cases hx : x.isFinite
    · rw [normal_number hx]
      exact iff_of_true
        (Binary64.same_unsignedZero (Binary64.isSome_position_of_isFinite hx)) hx
    · rw [normal_number_of_not hx]
      exact iff_of_false (by simp [same]) hx
  | text s => simp [normal, same, isStorable]
  | truth b => simp [normal, same, isStorable]
  | null => simp [normal, same, isStorable]

/-- The normal form of a storable value compares like the value. -/
theorem looselyEqual_normal (v : Value) {w : Value} (h : w.isStorable) :
    v.looselyEqual w.normal = v.looselyEqual w := by
  cases w with
  | number x =>
    rw [normal_number h]
    cases v with
    | number y => exact y.same_unsignedZero_right x
    | text s => exact (numberOfText s).same_unsignedZero_right x
    | truth b => exact (numberOfTruth b).same_unsignedZero_right x
    | null => rfl
  | _ => rfl

theorem looseOrder_normal (v : Value) {w : Value} (h : w.isStorable) :
    v.looseOrder w.normal = v.looseOrder w := by
  cases w with
  | number x =>
    rw [normal_number h]
    cases v with
    | number y => exact y.order_unsignedZero_right x
    | text s => exact (numberOfText s).order_unsignedZero_right x
    | truth b => exact (numberOfTruth b).order_unsignedZero_right x
    | null => exact Binary64.zero.order_unsignedZero_right x
  | _ => rfl

end Value

/-- **Equality and order decide every comparison.** -/
theorem Comparator.holds_congr (c : Comparator) {field field' : Option Value}
    {literal literal' : Value} (hequals : fieldEquals field literal = fieldEquals field' literal')
    (horder : fieldOrder field literal = fieldOrder field' literal') :
    c.holds field literal = c.holds field' literal' := by
  cases c <;> simp only [holds, hequals, horder]

/-- **No comparator tells a storable value from its normal form.** -/
theorem Comparator.holds_normal (c : Comparator) (field : Option Value) {w : Value}
    (h : w.isStorable) : c.holds field w.normal = c.holds field w := by
  have hequals : fieldEquals field w.normal = fieldEquals field w := by
    cases field with
    | some v => exact v.looselyEqual_normal h
    | none =>
      cases w with
      | number x => rw [Value.normal_number h]; rfl
      | _ => rfl
  have horder : fieldOrder field w.normal = fieldOrder field w := by
    cases field with
    | some v => exact v.looseOrder_normal h
    | none => rfl
  exact c.holds_congr hequals horder

/-! ## Operators -/

namespace Comparator

/-- **The comparator that the text of a comparator names**: one that was made
up from the text of a known one becomes the known one. -/
def normal : Comparator → Comparator
  | .other text => ofText text
  | c => c

/-- Whether a comparator was made up from the text of a known one. -/
def isAlias : Comparator → Bool
  | .other text => (ofText text).isKnown
  | _ => false

/-- What is read from the text of a comparator is its normal form. -/
@[simp] theorem ofText_text (c : Comparator) : ofText c.text = c.normal := by
  cases c <;> rfl

@[simp] theorem text_normal (c : Comparator) : c.normal.text = c.text := by
  rw [← ofText_text, text_ofText]

theorem normal_eq_iff (c : Comparator) : c.normal = c ↔ c.isAlias = false := by
  cases c with
  | other text =>
    show ofText text = other text ↔ (ofText text).isKnown = false
    constructor
    · intro h
      rw [h]
      rfl
    · intro h
      cases hc : ofText text with
      | other t => rw [← text_ofText text, hc]; rfl
      | _ => rw [hc] at h; cases h
  | _ => exact iff_of_true rfl rfl

/-- What a text names is no alias. -/
@[simp] theorem isAlias_ofText (text : String) : (ofText text).isAlias = false := by
  rw [← normal_eq_iff, ← ofText_text, text_ofText]

end Comparator

namespace Connective

/-- **The connective that the text of a connective names.** -/
def normal : Connective → Connective
  | .other text => ofText text
  | op => op

/-- Whether a connective was made up from the text of a known one. -/
def isAlias : Connective → Bool
  | .other text => (ofText text).isKnown
  | _ => false

/-- What is read from the text of a connective is its normal form. -/
@[simp] theorem ofText_text (op : Connective) : ofText op.text = op.normal := by
  cases op <;> rfl

@[simp] theorem text_normal (op : Connective) : op.normal.text = op.text := by
  rw [← ofText_text, text_ofText]

theorem normal_eq_iff (op : Connective) : op.normal = op ↔ op.isAlias = false := by
  cases op with
  | other text =>
    show ofText text = other text ↔ (ofText text).isKnown = false
    constructor
    · intro h
      rw [h]
      rfl
    · intro h
      cases hop : ofText text with
      | other t => rw [← text_ofText text, hop]; rfl
      | _ => rw [hop] at h; cases h
  | _ => exact iff_of_true rfl rfl

/-- A known connective is no alias. -/
theorem isAlias_of_isKnown {op : Connective} (h : op.isKnown) : op.isAlias = false := by
  cases op <;> first | rfl | cases h

end Connective

/-! ## Formulas -/

namespace Condition

/-- **What a document keeps of a condition.** -/
def normal (c : Condition) : Condition := ⟨c.field, c.comparator.normal, c.literal.normal⟩

/-- Whether a document keeps a condition as it is. -/
def isStorable (c : Condition) : Bool := !c.comparator.isAlias && c.literal.isStorable

theorem same_normal_iff (c : Condition) : c.normal.same c = true ↔ c.isStorable = true := by
  have hliteral := c.literal.same_normal_iff
  rw [same, isStorable, Bool.and_eq_true, Bool.and_eq_true, Bool.and_eq_true, beq_iff_eq,
    beq_iff_eq, Bool.not_eq_true', ← Comparator.normal_eq_iff, ← hliteral]
  exact ⟨fun h => ⟨h.1.2, h.2⟩, fun h => ⟨⟨rfl, h.1⟩, h.2⟩⟩

/-- A storable condition holds where its normal form holds. -/
theorem holds_normal {c : Condition} (h : c.isStorable) (record : Record) :
    c.normal.holds record = c.holds record := by
  rw [isStorable, Bool.and_eq_true, Bool.not_eq_true', ← Comparator.normal_eq_iff] at h
  rw [holds, holds, normal]
  dsimp only
  rw [h.1, Comparator.holds_normal _ _ h.2]

end Condition

namespace Formula

/-- **The normal form of a formula**, which is what a document keeps of it. -/
def normal : Formula → Formula
  | .condition c => .condition c.normal
  | .join op left right => .join op.normal left.normal right.normal

/-- **Whether a document keeps a formula as it is**: every number in it is
finite, and no operator was made up from the text of a known one. -/
def isStorable : Formula → Bool
  | .condition c => c.isStorable
  | .join op left right => !op.isAlias && left.isStorable && right.isStorable

theorem isStorable_join_iff {op : Connective} {left right : Formula} :
    (join op left right).isStorable = true ↔
      op.isAlias = false ∧ left.isStorable = true ∧ right.isStorable = true := by
  rw [isStorable, Bool.and_eq_true, Bool.and_eq_true, Bool.not_eq_true', and_assoc]

/-- **Nothing is lost of a formula exactly if it is storable.** -/
theorem same_normal_iff (f : Formula) : f.normal.same f = true ↔ f.isStorable = true := by
  induction f with
  | condition c => exact c.same_normal_iff
  | join op left right ihleft ihright =>
    rw [normal, same, isStorable_join_iff, Bool.and_eq_true, Bool.and_eq_true, beq_iff_eq,
      Connective.normal_eq_iff, ihleft, ihright, and_assoc]

/-- **A storable formula holds where its normal form holds.** -/
theorem holds_normal {f : Formula} (h : f.isStorable) (record : Record) :
    f.normal.holds record = f.holds record := by
  induction f with
  | condition c => exact Condition.holds_normal h record
  | join op left right ihleft ihright =>
    obtain ⟨hop, hleft, hright⟩ := isStorable_join_iff.mp h
    rw [normal, holds, holds, ihleft hleft, ihright hright, (Connective.normal_eq_iff op).mpr hop]

end Formula

end Rulebook
