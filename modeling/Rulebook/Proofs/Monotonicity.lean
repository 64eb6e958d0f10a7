import Rulebook.Proofs.EvaluationReport

/-!
# Where more conditions hold, more rules hold

A formula has no negation. `!=` stands inside of a condition, and a connective that is not
known takes what its sides say for nothing at all, so it cannot turn it round either. What
holds of a formula is therefore kept where every condition that held still holds
(`Formula.holds_mono`), and so is what its evaluation reports: the lines about conditions that
hold stay in their order, and further ones come in between (`runRule_mono`).

A line about a condition begins with the path to the condition. The path has no colon in it,
so it can be told from what follows (`linePath_line`), and the paths that are listed are those
of the conditions that hold (`Report.mem_listedPaths_iff`).
-/

namespace Rulebook

/-- A connective holds on more, if it holds on less. -/
theorem Connective.verdict_mono {op : Connective} {left right left' right' : Bool}
    (hleft : left = true → left' = true) (hright : right = true → right' = true)
    (h : op.verdict left right = true) : op.verdict left' right' = true := by
  cases op with
  | and =>
    rw [verdict, Bool.and_eq_true] at h ⊢
    exact ⟨hleft h.1, hright h.2⟩
  | or =>
    rw [verdict, Bool.or_eq_true] at h ⊢
    exact h.imp hleft hright
  | other text => cases h

/-- **A formula holds on more records, if its conditions do.** -/
theorem Formula.holds_mono {record record' : Record} {f : Formula}
    (h : ∀ c ∈ f.conditions, c.holds record → c.holds record') (hholds : f.holds record) :
    f.holds record' := by
  induction f with
  | condition c => exact h c List.mem_cons_self hholds
  | join op left right ihleft ihright =>
    rw [conditions, List.forall_mem_append] at h
    exact Connective.verdict_mono (ihleft h.1) (ihright h.2) hholds

/-! ## Listed paths -/

/-- **The path with which a line begins**, which ends at the first colon. -/
def linePath (line : String) : String := String.ofList (line.toList.takeWhile (· ≠ ':'))

/-- There is no colon in a path. -/
theorem colon_not_mem_pathTo (place : List Side) : ':' ∉ (pathTo rootPath place).toList := by
  rw [toList_pathTo, List.mem_append, List.mem_flatMap]
  rintro (hroot | ⟨side, -, hside⟩)
  · exact absurd hroot (by decide)
  · cases side <;> exact absurd hside (by decide)

/-- **A line about a condition begins with its path.** -/
theorem linePath_line (place : List Side) (c : Condition) :
    linePath (c.line (pathTo rootPath place)) = pathTo rootPath place := by
  have hline : (c.line (pathTo rootPath place)).toList
      = (pathTo rootPath place).toList ++ ':' :: ' ' :: c.description.toList := by
    simp [Condition.line]
  have hcolon : ∀ x ∈ (pathTo rootPath place).toList, decide (x ≠ ':') = true := by
    rintro x hx
    refine decide_eq_true ?_
    rintro rfl
    exact colon_not_mem_pathTo place hx
  rw [linePath, hline, List.takeWhile_append_of_pos hcolon,
    List.takeWhile_cons_of_neg (by decide), List.append_nil, String.ofList_toList]

/-- **The paths that a report lists** for the conditions that hold. -/
def Report.listedPaths (report : Report) : List String := report.conditions.map linePath

/-- The lines about the conditions that hold. -/
theorem conditions_runRule (traced : Bool) (f : Formula) (record : Record) :
    (runRule traced (some f) record).conditions
      = (f.leaves.filter fun e => e.2.holds record).map fun e => e.2.line (pathTo rootPath e.1) :=
  congrArg Report.conditions (f.run_eq traced record rootPath)

/-- **The paths that are listed** are those of the conditions that hold. -/
theorem mem_listedPaths_iff {traced : Bool} {f : Formula} {record : Record} {path : String} :
    path ∈ (runRule traced (some f) record).listedPaths ↔
      ∃ place c, path = pathTo rootPath place ∧ f.at? place = some (.condition c) ∧
        c.holds record := by
  simp only [Report.listedPaths, conditions_runRule, List.map_map, List.mem_map, List.mem_filter,
    Function.comp_apply, linePath_line, Prod.exists, Formula.mem_leaves_iff]
  constructor
  · rintro ⟨place, c, ⟨hplace, hholds⟩, rfl⟩
    exact ⟨place, c, rfl, hplace, hholds⟩
  · rintro ⟨place, c, rfl, hplace, hholds⟩
    exact ⟨place, c, ⟨hplace, hholds⟩, rfl⟩

/-! ## Reports on two records -/

/-- What fewer items pass is a part of what more items pass. -/
theorem filter_sublist_filter {α : Type} {p q : α → Bool} {l : List α}
    (h : ∀ x ∈ l, p x → q x) : (l.filter p).Sublist (l.filter q) := by
  have hp : l.filter p = (l.filter q).filter p := by
    rw [List.filter_filter]
    refine List.filter_congr fun x hx => ?_
    cases hpx : p x with
    | false => rfl
    | true => exact (h x hx hpx).symm
  rw [hp]
  exact List.filter_sublist

/-- **Rules are monotone in their conditions.** If every condition of a formula that holds on
one record holds on another, then the formula holds on the other if it holds on the one. The
lines about conditions that hold are still there in their order, so every path that is listed
is listed again – and a path is listed for a condition that holds, and for nothing else. -/
theorem runRule_mono {f : Formula} {record record' : Record}
    (h : ∀ c ∈ f.conditions, c.holds record → c.holds record') :
    (ruleHolds (some f) record → ruleHolds (some f) record') ∧
    (∀ traced, (runRule traced (some f) record).conditions.Sublist
      (runRule traced (some f) record').conditions) ∧
    (∀ traced, ∀ path ∈ (runRule traced (some f) record).listedPaths,
      path ∈ (runRule traced (some f) record').listedPaths) ∧
    ∀ traced seen path, path ∈ (runRule traced (some f) seen).listedPaths ↔
      ∃ place c, path = pathTo rootPath place ∧ f.at? place = some (.condition c) ∧
        c.holds seen := by
  have hleaves : ∀ e ∈ f.leaves, e.2.holds record → e.2.holds record' := by
    intro e he
    refine h e.2 ?_
    rw [← f.map_snd_leaves]
    exact List.mem_map_of_mem he
  have hlines (traced : Bool) : (runRule traced (some f) record).conditions.Sublist
      (runRule traced (some f) record').conditions := by
    rw [conditions_runRule, conditions_runRule]
    exact (filter_sublist_filter hleaves).map _
  exact ⟨f.holds_mono h, hlines, fun traced => ((hlines traced).map linePath).subset,
    fun _ _ _ => mem_listedPaths_iff⟩

/-- A formula with a comparison that holds of a missing field, below a connective that is not
known. -/
def threefoldFormula : Formula :=
  .join .or (.condition ⟨"a", .eq, .text "x"⟩)
    (.join (.other "XOR") (.condition ⟨"b", .ne, .text "y"⟩) (.condition ⟨"c", .lt, .text "m"⟩))

/-- A record that lacks two fields of the formula. -/
def sparseRecord : Record := Table.empty.insert "a" (.text "x")

/-- The record with all fields. -/
def filledRecord : Record := (sparseRecord.insert "b" (.text "z")).insert "c" (.text "k")

/-- More fields, and nothing is lost. -/
theorem runRule_mono_threefoldFormula :
    (∀ c ∈ threefoldFormula.conditions, c.holds sparseRecord → c.holds filledRecord) ∧
      ruleHolds (some threefoldFormula) filledRecord ∧
      ∀ path ∈ ["root.left", "root.right.left"],
        path ∈ (runRule false (some threefoldFormula) filledRecord).listedPaths := by
  have hconditions :
      ∀ c ∈ threefoldFormula.conditions, c.holds sparseRecord → c.holds filledRecord := by
    decide
  have hlisted : (runRule false (some threefoldFormula) sparseRecord).listedPaths
      = ["root.left", "root.right.left"] := by
    decide
  obtain ⟨hholds, -, hpaths, -⟩ := runRule_mono hconditions
  exact ⟨hconditions, hholds (by decide), hlisted ▸ hpaths false⟩

end Rulebook
