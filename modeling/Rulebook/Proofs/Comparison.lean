import Rulebook.Comparison
import Rulebook.Proofs.Number.Whole
import Rulebook.Proofs.Text.Units

/-!
# The comparators form one order

Equality and order are read in two different ways: equality looks at the kinds of the
two values first, order takes both for numbers unless both are texts. They still fit
together. If neither value is `null`, or both are, a field equals a value exactly if the
two stand equal in the order (`looselyEqual_iff`), and they stand in some order unless
they are `Apart`: not both texts, and one of them no number (`looseOrder_eq_none_iff`).

`comparators_consistent` puts this together for all comparators and values, with the
break at `null`: a `null` equals nothing else, and is ordered like the number zero.
-/

namespace Rulebook

namespace Binary64

/-- Only what is not a number has no position. -/
theorem position_eq_none_iff {x : Binary64} : x.position = none ↔ x = .nan := by
  cases x with
  | nan => exact iff_of_true rfl rfl
  | infinite negative => exact iff_of_false (Option.some_ne_none _) nofun
  | finite negative m => exact iff_of_false (Option.some_ne_none _) nofun

/-- Two numbers stand in no order exactly if one of them is not a number. -/
theorem order_eq_none_iff {x y : Binary64} : x.order y = none ↔ x = .nan ∨ y = .nan := by
  rw [← position_eq_none_iff, ← position_eq_none_iff, order]
  cases x.position <;> cases y.position <;> simp

end Binary64

/-- The two truth values stand to each other like one and zero. -/
theorem order_numberOfTruth_eq_iff {a b : Bool} :
    (numberOfTruth a).order (numberOfTruth b) = some .eq ↔ a = b := by
  have hposition (c : Bool) :
      (numberOfTruth c).position = some ((c.toNat * stepsPerUnit : Nat) : Int) :=
    Binary64.position_ofNat (c.toNat_le.trans (Nat.one_le_two_pow))
  rw [Binary64.order, hposition, hposition, Option.some_inj, Std.compare_eq_iff_eq,
    Int.natCast_inj, Nat.mul_left_inj (Nat.ne_of_gt stepsPerUnit_pos)]
  cases a <;> cases b <;> decide

namespace Value

/-- Whether a value is a text. -/
def isText : Value → Bool
  | .text _ => true
  | _ => false

/-- **Values that stand in no order to each other**: they are not both texts, and one of
them is not a number. -/
def Apart (v w : Value) : Prop :=
  ¬ (v.isText ∧ w.isText) ∧ (v.toNumber = .nan ∨ w.toNumber = .nan)

/-- A value with the number zero in the place of `null`. -/
def zeroForNull : Value → Value
  | .null => .number .zero
  | v => v

variable {v w : Value}

/-- Unless both are texts, values are ordered as numbers. -/
theorem looseOrder_of_not_isText (h : ¬ (v.isText ∧ w.isText)) :
    v.looseOrder w = v.toNumber.order w.toNumber := by
  cases v with
  | text s =>
    cases w with
    | text t => exact absurd ⟨rfl, rfl⟩ h
    | _ => rfl
  | _ => rfl

/-- **Values that are not apart stand in an order.** -/
theorem looseOrder_eq_none_iff : v.looseOrder w = none ↔ v.Apart w := by
  by_cases h : v.isText ∧ w.isText
  · refine iff_of_false (fun hnone => ?_) (fun hapart => hapart.1 h)
    cases v with
    | text s =>
      cases w with
      | text t => cases hnone
      | _ => cases h.2
    | _ => cases h.1
  · rw [looseOrder_of_not_isText h, Binary64.order_eq_none_iff, Apart, and_iff_right h]

/-- **Equality is to stand equal in the order**, if neither value is `null` or both are. -/
theorem looselyEqual_iff (h : v = .null ↔ w = .null) :
    v.looselyEqual w = true ↔ v.looseOrder w = some .eq := by
  cases v with
  | text s =>
    cases w with
    | text t =>
      show (s == t) = true ↔ some (unitOrder s t) = some .eq
      rw [beq_iff_eq, Option.some_inj, unitOrder_eq_iff]
    | null => simp at h
    | _ => exact beq_iff_eq
  | truth a =>
    cases w with
    | truth b =>
      show (a == b) = true ↔ (numberOfTruth a).order (numberOfTruth b) = some .eq
      rw [beq_iff_eq, order_numberOfTruth_eq_iff]
    | null => simp at h
    | _ => exact beq_iff_eq
  | number x =>
    cases w with
    | null => simp at h
    | _ => exact beq_iff_eq
  | null =>
    cases w with
    | null => exact iff_of_true rfl (by decide)
    | _ => simp at h

/-- `null` equals nothing else. -/
theorem looselyEqual_of_null (h : ¬ (v = .null ↔ w = .null)) : v.looselyEqual w = false := by
  cases v <;> cases w <;> simp_all [looselyEqual]

/-- **`null` is ordered like the number zero.** -/
theorem looseOrder_zeroForNull (v w : Value) :
    v.zeroForNull.looseOrder w.zeroForNull = v.looseOrder w := by
  cases v <;> cases w <;> rfl

end Value

namespace Comparator

/-- The comparator that asks for one of the three ways in which values can stand to each
other. -/
def ofOrdering : Ordering → Comparator
  | .lt => .lt
  | .eq => .eq
  | .gt => .gt

variable {v w : Value}

/-- If neither value is `null`, or both are, the comparators `<`, `=` and `>` look at the
order alone. -/
theorem holds_ofOrdering_iff (h : v = .null ↔ w = .null) (o : Ordering) :
    (ofOrdering o).holds (some v) w ↔ v.looseOrder w = some o := by
  cases o with
  | lt => exact beq_iff_eq
  | eq => exact Value.looselyEqual_iff h
  | gt => exact beq_iff_eq

/-- To stand in one of two ways to each other, one of them equal, is what one of the two
comparators asks for. -/
theorem looseOrder_or_eq_iff (h : v = .null ↔ w = .null) (o : Ordering) :
    (v.looseOrder w == some o || v.looseOrder w == some .eq) ↔
      (ofOrdering o).holds (some v) w ∨ eq.holds (some v) w := by
  rw [Bool.or_eq_true, beq_iff_eq, beq_iff_eq, holds_ofOrdering_iff h o,
    ← holds_ofOrdering_iff h .eq]
  rfl

theorem holds_le_iff (h : v = .null ↔ w = .null) :
    le.holds (some v) w ↔ lt.holds (some v) w ∨ eq.holds (some v) w :=
  looseOrder_or_eq_iff h .lt

theorem holds_ge_iff (h : v = .null ↔ w = .null) :
    ge.holds (some v) w ↔ gt.holds (some v) w ∨ eq.holds (some v) w :=
  looseOrder_or_eq_iff h .gt

theorem holds_ne_iff (field : Option Value) (w : Value) :
    ne.holds field w ↔ ¬ eq.holds field w := by
  show (!fieldEquals field w) = true ↔ ¬ fieldEquals field w = true
  rw [Bool.not_eq_true', Bool.not_eq_true]

/-- **Values that are apart are only unequal.** -/
theorem holds_iff_of_apart (h : v = .null ↔ w = .null) (hapart : v.Apart w) (c : Comparator) :
    c.holds (some v) w ↔ c = .ne := by
  have hnone : v.looseOrder w = none := Value.looseOrder_eq_none_iff.mpr hapart
  have heq : ¬ eq.holds (some v) w := by
    rw [← ofOrdering, holds_ofOrdering_iff h, hnone]
    simp
  cases c with
  | ne => simp [holds_ne_iff, heq]
  | eq => simp [heq]
  | other text => simp [holds]
  | _ => simp [holds, fieldOrder, hnone]

/-- **Of `<`, `=` and `>` exactly one holds** between values that are not apart. -/
theorem existsUnique_ofOrdering (h : v = .null ↔ w = .null) (hapart : ¬ v.Apart w) :
    ∃! o, (ofOrdering o).holds (some v) w := by
  obtain ⟨o, ho⟩ := Option.ne_none_iff_exists'.mp (mt Value.looseOrder_eq_none_iff.mp hapart)
  refine ⟨o, (holds_ofOrdering_iff h o).mpr ho, fun o' ho' => ?_⟩
  have ho' := (holds_ofOrdering_iff h o').mp ho'
  rw [ho, Option.some_inj] at ho'
  exact ho'.symm

/-- A field that is missing equals `null`, and is unequal to everything else. -/
theorem holds_none_iff (c : Comparator) (w : Value) :
    c.holds none w ↔ c = if w = .null then .eq else .ne := by
  by_cases hw : w = .null
  · cases c <;> simp [holds, fieldEquals, fieldOrder, hw]
  · cases c <;> simp [holds, fieldEquals, fieldOrder, hw]

/-- **The comparators form one order.** For every field and value, `!=` holds exactly if
`=` does not. If neither of them is `null`, or both are, `<=` is `<` or `=`, `>=` is `>` or
`=`, and exactly one of `<`, `=` and `>` holds – unless the two are apart, when `!=` alone
does. If one of them is `null`, `=` does not hold, and the other comparators decide as for
the number zero. A field that is missing is unequal to all but `null`, which it equals. A
comparator that is not known never holds. -/
theorem comparators_consistent (v w : Value) :
    (ne.holds (some v) w ↔ ¬ eq.holds (some v) w) ∧
      ((v = .null ↔ w = .null) →
        (le.holds (some v) w ↔ lt.holds (some v) w ∨ eq.holds (some v) w) ∧
        (ge.holds (some v) w ↔ gt.holds (some v) w ∨ eq.holds (some v) w) ∧
        (¬ v.Apart w → ∃! o, (ofOrdering o).holds (some v) w) ∧
        (v.Apart w → ∀ c : Comparator, c.holds (some v) w ↔ c = .ne)) ∧
      (¬ (v = .null ↔ w = .null) →
        ¬ eq.holds (some v) w ∧
        ∀ c ∈ [lt, gt, le, ge],
          c.holds (some v) w = c.holds (some v.zeroForNull) w.zeroForNull) ∧
      (∀ c : Comparator, c.holds none w ↔ c = if w = .null then .eq else .ne) ∧
      ∀ (text : String) (field : Option Value), ¬ (other text).holds field w := by
  refine ⟨holds_ne_iff (some v) w, fun h => ?_, fun h => ⟨?_, fun c hc => ?_⟩,
    fun c => holds_none_iff c w, fun text field => Bool.false_ne_true⟩
  · exact ⟨holds_le_iff h, holds_ge_iff h, existsUnique_ofOrdering h, holds_iff_of_apart h⟩
  · exact Bool.eq_false_iff.mp (Value.looselyEqual_of_null h)
  · -- these four look at the order alone
    have horder : fieldOrder (some v) w = fieldOrder (some v.zeroForNull) w.zeroForNull :=
      (Value.looseOrder_zeroForNull v w).symm
    simp only [List.mem_cons, List.not_mem_nil, or_false] at hc
    obtain rfl | rfl | rfl | rfl := hc <;> simp only [holds, horder]

-- the break: `null` and zero are not equal, but neither is below the other
example : le.holds (some .null) (.number .zero) ∧ ge.holds (some .null) (.number .zero) ∧
    ¬ eq.holds (some .null) (.number .zero) := by
  decide

end Comparator

end Rulebook
