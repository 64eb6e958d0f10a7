import Rulebook.Proofs.Comparison

/-!
# The two sides of a comparison

A condition has a field on its left and a value on its right, and the rules for comparing
the two are not written the same way on both sides: they look at the left one first. It
still does not matter which of two values is the field. Equality does not tell its sides
apart (`looselyEqual_comm`), and the order of two values turns round with them
(`looseOrder_swap`), so a comparator becomes its mirror image (`holds_mirrored`).
-/

namespace Rulebook

/-- Exchanging two numbers turns their order round, if they stand in one. -/
theorem Binary64.order_swap (x y : Binary64) : (x.order y).map Ordering.swap = y.order x := by
  rw [order, order]
  cases x.position with
  | none => cases y.position <;> rfl
  | some p =>
    cases y.position with
    | none => rfl
    | some q => exact congrArg some Std.OrientedOrd.eq_swap.symm

theorem Binary64.same_comm (x y : Binary64) : x.same y = y.same x := by
  rw [same, same, ← order_swap x y]
  cases x.order y with
  | none => rfl
  | some o => cases o <;> rfl

/-- Exchanging two texts turns their order round. -/
theorem unitOrder_swap (a b : String) : (unitOrder a b).swap = unitOrder b a := by
  rw [unitOrder, unitOrder, rowOrder_eq_compare, rowOrder_eq_compare]
  exact Std.OrientedOrd.eq_swap.symm

namespace Value

/-- **Equality does not tell its sides apart.** -/
theorem looselyEqual_comm (v w : Value) : v.looselyEqual w = w.looselyEqual v := by
  -- the kinds of the two values decide what is compared: nothing beside `null`, texts with
  -- texts, truth values with truth values, and numbers in all other cases
  cases v with
  | number x =>
    cases w with
    | null => rfl
    | _ => exact Binary64.same_comm _ _
  | text s =>
    cases w with
    | text t => exact Bool.beq_comm
    | null => rfl
    | _ => exact Binary64.same_comm _ _
  | truth a =>
    cases w with
    | truth b => exact Bool.beq_comm
    | null => rfl
    | _ => exact Binary64.same_comm _ _
  | null => cases w <;> rfl

/-- **The order of two values turns round with them.** -/
theorem looseOrder_swap (v w : Value) : (v.looseOrder w).map Ordering.swap = w.looseOrder v := by
  by_cases h : v.isText ∧ w.isText
  · cases v with
    | text s =>
      cases w with
      | text t => exact congrArg some (unitOrder_swap s t)
      | _ => cases h.2
    | _ => cases h.1
  · rw [looseOrder_of_not_isText h, looseOrder_of_not_isText (mt And.symm h)]
    exact Binary64.order_swap v.toNumber w.toNumber

end Value

namespace Comparator

/-- **The mirror image of a comparator**, which says the same from the other side. -/
def mirrored : Comparator → Comparator
  | .lt => .gt
  | .gt => .lt
  | .le => .ge
  | .ge => .le
  | .eq => .eq
  | .ne => .ne
  | .other text => .other text

/-- **Exchanging the sides of a comparison mirrors the comparator**, for values of any kinds:
also where one of them is `null`, or not a number, or where they stand in no order. -/
theorem holds_mirrored (c : Comparator) (v w : Value) :
    c.holds (some v) w = c.mirrored.holds (some w) v := by
  have hequals : fieldEquals (some v) w = fieldEquals (some w) v := v.looselyEqual_comm w
  have horder (o : Ordering) :
      (fieldOrder (some v) w == some o) = (fieldOrder (some w) v == some o.swap) := by
    show (v.looseOrder w == some o) = (w.looseOrder v == some o.swap)
    rw [← Value.looseOrder_swap v w]
    cases v.looseOrder w with
    | none => rfl
    | some o' => cases o <;> cases o' <;> rfl
  cases c with
  | lt => exact horder .lt
  | gt => exact horder .gt
  | le => exact congrArg₂ or (horder .lt) (horder .eq)
  | ge => exact congrArg₂ or (horder .gt) (horder .eq)
  | eq => exact hequals
  | ne => exact congrArg not hequals
  | other text => rfl

end Comparator

end Rulebook
