import Rulebook.Proofs.Comparison.Sides
import Rulebook.Proofs.Text.Order

/-!
# Comparing texts

Between two texts the comparators are read off in two ways. Equality looks at the texts
themselves, order at their sixteen-bit units. `text_comparisons` says that the two make up
one strict total order, and which: that of the units. It is also the order of the
characters, except between texts whose first difference is a character from `U+10000` on
against one of `U+E000` to `U+FFFF`.
-/

namespace Rulebook

namespace Comparator

/-- **Between texts `<` looks at the units.** -/
theorem holds_lt_text_iff (a b : String) :
    lt.holds (some (.text a)) (.text b) ↔ units a.toList < units b.toList := by
  rw [← rowOrder_eq_lt_iff]
  exact beq_iff_eq.trans Option.some_inj

theorem holds_gt_text_iff (a b : String) :
    gt.holds (some (.text a)) (.text b) ↔ lt.holds (some (.text b)) (.text a) := by
  rw [holds_lt_text_iff, ← rowOrder_eq_lt_iff, ← unitOrder, ← unitOrder_swap, Ordering.swap_eq_lt]
  exact beq_iff_eq.trans Option.some_inj

/-- The order of two texts and the order of their characters are opposite, or the same. -/
theorem holds_lt_text_iff_chars (a b : String) :
    lt.holds (some (.text a)) (.text b) ↔
      (¬ FirstTurned a.toList b.toList ∧ a < b) ∨ (FirstTurned a.toList b.toList ∧ b < a) := by
  rw [holds_lt_text_iff, units_lt_units_iff, String.lt_iff_toList_lt, String.lt_iff_toList_lt]

/-- **The two orders agree** on two texts exactly if their first difference does not turn the
order round. -/
theorem holds_lt_text_agrees_iff (a b : String) :
    (lt.holds (some (.text a)) (.text b) ↔ a < b) ↔ ¬ FirstTurned a.toList b.toList := by
  rw [holds_lt_text_iff_chars]
  refine ⟨fun hagree hturned => ?_, fun hturned => by simp [hturned]⟩
  -- the texts are different, so one of them is below the other, and in one order only
  obtain ⟨c, d, hdiffer, -⟩ := id hturned
  have hne : a ≠ b := mt (congrArg String.toList) hdiffer.ne
  obtain hlt | hgt := lt_or_gt_of_ne hne
  · exact (hagree.mpr hlt).elim (fun h => h.1 hturned) (fun h => lt_asymm hlt h.2)
  · exact lt_asymm hgt (hagree.mp (.inr ⟨hturned, hgt⟩))

/-- **Texts stand in one strict total order**, that of their sixteen-bit units. No text is
below itself, what is below a text is below all that this is below, exactly one of `<`, `=`
and `>` holds between two texts, `=` is to be the same text, and `>` is `<` from the other
side. The order agrees with that of characters exactly if the first difference of the two
texts does not turn it round; if it does, the two orders are opposite. -/
theorem text_comparisons (a b c : String) :
    ¬ lt.holds (some (.text a)) (.text a) ∧
      (lt.holds (some (.text a)) (.text b) → lt.holds (some (.text b)) (.text c) →
        lt.holds (some (.text a)) (.text c)) ∧
      (∃! o, (ofOrdering o).holds (some (.text a)) (.text b)) ∧
      (eq.holds (some (.text a)) (.text b) ↔ a = b) ∧
      (gt.holds (some (.text a)) (.text b) ↔ lt.holds (some (.text b)) (.text a)) ∧
      (lt.holds (some (.text a)) (.text b) ↔ units a.toList < units b.toList) ∧
      ((lt.holds (some (.text a)) (.text b) ↔ a < b) ↔ ¬ FirstTurned a.toList b.toList) ∧
      (FirstTurned a.toList b.toList → (lt.holds (some (.text a)) (.text b) ↔ b < a)) := by
  have hnull : Value.text a = .null ↔ Value.text b = .null := by simp
  have hapart : ¬ (Value.text a).Apart (.text b) := fun h => h.1 ⟨rfl, rfl⟩
  refine ⟨?_, ?_, existsUnique_ofOrdering hnull hapart, beq_iff_eq,
    holds_gt_text_iff a b, holds_lt_text_iff a b, holds_lt_text_agrees_iff a b, ?_⟩
  · rw [holds_lt_text_iff]
    exact List.lt_irrefl _
  · rw [holds_lt_text_iff, holds_lt_text_iff, holds_lt_text_iff]
    exact List.lt_trans
  · intro h
    rw [holds_lt_text_iff_chars]
    simp [h]

-- a pair of units is below a single unit above the pairs, though its character is above
example : lt.holds (some (.text "😀")) (.text "Ａ") ∧ "Ａ" < "😀" := by decide

end Comparator

end Rulebook
