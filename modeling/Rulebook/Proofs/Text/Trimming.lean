import Rulebook.Text.Blank

/-!
# Trimming

A trimmed text is what is left when the characters at both ends that a test admits are taken
off. Two facts tell it: only such characters are taken off (`exists_append_trimBy`), and it does
not matter how many of them there are (`trimBy_append_append`). So a text that holds none of them
is what is left of it in any surrounding.
-/

namespace Rulebook

variable {drop : Char → Bool}

/-- **What is taken off does not count.** -/
theorem trimBy_append_append {before after : List Char} (hbefore : ∀ c ∈ before, drop c)
    (text : List Char) (hafter : ∀ c ∈ after, drop c) :
    trimBy drop (before ++ text ++ after) = trimBy drop text := by
  have hnone : after.dropWhile drop = [] := by
    rw [← List.append_nil after, List.dropWhile_append_of_pos hafter, List.dropWhile_nil]
  unfold trimBy
  rw [List.append_assoc, List.dropWhile_append_of_pos hbefore, List.dropWhile_append]
  split
  · rename_i htext
    rw [hnone, List.isEmpty_iff.mp htext]
  · rw [List.reverse_append,
      List.dropWhile_append_of_pos fun c hc => hafter c (List.mem_reverse.mp hc)]

/-- A text that begins with what stays is left alone at its beginning. -/
theorem dropWhile_eq_self {text : List Char} (h : ∀ c ∈ text, drop c = false) :
    text.dropWhile drop = text := by
  cases text with
  | nil => rfl
  | cons c text => exact List.dropWhile_cons_of_neg (ne_true_of_eq_false (h c List.mem_cons_self))

/-- A text without such characters is left alone. -/
theorem trimBy_eq_self {text : List Char} (h : ∀ c ∈ text, drop c = false) :
    trimBy drop text = text := by
  unfold trimBy
  rw [dropWhile_eq_self h, dropWhile_eq_self fun c hc => h c (List.mem_reverse.mp hc),
    List.reverse_reverse]

/-- What stays at the beginning stays there, whatever follows. -/
theorem exists_trimBy_append {first : List Char} (hne : first ≠ [])
    (h : ∀ c ∈ first, drop c = false) (text : List Char) :
    ∃ rest, trimBy drop (first ++ text) = first ++ rest := by
  have hstart : (first ++ text).dropWhile drop = first ++ text := by
    cases first with
    | nil => exact absurd rfl hne
    | cons c first =>
      exact List.dropWhile_cons_of_neg (ne_true_of_eq_false (h c List.mem_cons_self))
  unfold trimBy
  rw [hstart, List.reverse_append, List.dropWhile_append]
  split
  · rw [dropWhile_eq_self fun c hc => h c (List.mem_reverse.mp hc), List.reverse_reverse]
    exact ⟨[], (List.append_nil _).symm⟩
  · rw [List.reverse_append, List.reverse_reverse]
    exact ⟨_, rfl⟩

/-- What is dropped at the beginning. -/
theorem exists_append_dropWhile (drop : Char → Bool) (text : List Char) :
    ∃ before, text = before ++ text.dropWhile drop ∧ ∀ c ∈ before, drop c :=
  ⟨text.takeWhile drop, List.takeWhile_append_dropWhile.symm,
    List.all_eq_true.mp List.all_takeWhile⟩

/-- **Only characters of the kind are taken off.** -/
theorem exists_append_trimBy (drop : Char → Bool) (text : List Char) :
    ∃ before after, text = before ++ trimBy drop text ++ after ∧
      (∀ c ∈ before, drop c) ∧ ∀ c ∈ after, drop c := by
  obtain ⟨before, hbefore, hdropped⟩ := exists_append_dropWhile drop text
  obtain ⟨after, hafter, hdropped'⟩ :=
    exists_append_dropWhile drop (text.dropWhile drop).reverse
  refine ⟨before, after.reverse, ?_, hdropped, fun c hc => hdropped' c (List.mem_reverse.mp hc)⟩
  have hrest : text.dropWhile drop = trimBy drop text ++ after.reverse := by
    rw [trimBy, ← List.reverse_append, ← hafter, List.reverse_reverse]
  rw [List.append_assoc, ← hrest]
  exact hbefore

end Rulebook
