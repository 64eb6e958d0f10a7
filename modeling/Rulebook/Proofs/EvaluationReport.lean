import Rulebook.Evaluation

/-!
# What an evaluation reports

An evaluation goes through a formula and writes down what it finds on its way. Its
report is therefore a picture of the formula: a line for each node, in the order in which
the nodes are left, and a line for each condition that holds, from left to right.

To say so, a node is named by its place, the steps that lead to it from the root.
`Formula.at?` is the node at a place, `Formula.nodes` has all nodes with their places, and
`Precedes` is the order in which an evaluation is done with them: a node comes after
everything below it, and the left side of a node before the right one. The order tells
places apart, and so do their texts (`pathTo_injective`), so no two lines of a report begin
with the same path.

`Formula.run_eq` gives the whole report on a formula at once, by induction on the formula.
`runRule_mirrors` reads the parts of it off for a rule.
-/

namespace Rulebook

/-! ## Places -/

/-- A step from a node to one of its sides. -/
inductive Side where
  /-- To the left side. -/
  | left
  /-- To the right side. -/
  | right
deriving DecidableEq

/-- How a step is written. -/
def Side.text : Side → String
  | .left => ".left"
  | .right => ".right"

/-- No step is written like the beginning of another. -/
theorem Side.text_append_inj {side side' : Side} {more more' : List Char}
    (h : side.text.toList ++ more = side'.text.toList ++ more') : side = side' ∧ more = more' := by
  cases side <;> cases side' <;> simp_all [text]

/-- **The path to a place**: the steps are written behind the path of the node from which
they lead. -/
def pathTo (path : String) : List Side → String
  | [] => path
  | side :: place => pathTo (path ++ side.text) place

/-- **The node at a place** of a formula, if there is one. -/
def Formula.at? : Formula → List Side → Option Formula
  | f, [] => some f
  | .condition _, _ :: _ => none
  | .join _ left _, .left :: place => left.at? place
  | .join _ _ right, .right :: place => right.at? place

/-- **When an evaluation is done with one place before another**: what is below a node
comes before the node, and its left side before its right side. -/
inductive Precedes : List Side → List Side → Prop where
  /-- What is below a node comes before it. -/
  | inside (side : Side) (place : List Side) : Precedes (side :: place) []
  /-- The left side comes before the right side. -/
  | across (place place' : List Side) : Precedes (.left :: place) (.right :: place')
  /-- Within one side the order is that of the side. -/
  | sameSide (side : Side) {place place' : List Side} (h : Precedes place place') :
    Precedes (side :: place) (side :: place')

theorem Precedes.ne {place place' : List Side} (h : Precedes place place') : place ≠ place' := by
  induction h with
  | inside => simp
  | across => simp
  | sameSide side _ ih => simpa using ih

theorem toList_pathTo (path : String) (place : List Side) :
    (pathTo path place).toList = path.toList ++ place.flatMap fun side => side.text.toList := by
  induction place generalizing path with
  | nil => simp [pathTo]
  | cons side place ih => simp [pathTo, ih]

/-- **Different places have different paths.** -/
theorem pathTo_injective (path : String) : Function.Injective (pathTo path) := by
  intro place place' h
  replace h := congrArg String.toList h
  rw [toList_pathTo, toList_pathTo, List.append_cancel_left_eq] at h
  induction place generalizing place' with
  | nil =>
    cases place' with
    | nil => rfl
    | cons side' place' => cases side' <;> simp [Side.text] at h
  | cons side place ih =>
    cases place' with
    | nil => cases side <;> simp [Side.text] at h
    | cons side' place' =>
      obtain ⟨rfl, hrest⟩ := Side.text_append_inj h
      rw [ih hrest]

/-! ## The nodes of a formula -/

/-- Entries on a side of a node, with their places seen from the node. -/
def onSide {α : Type} (side : Side) (entries : List (List Side × α)) : List (List Side × α) :=
  entries.map fun e => (side :: e.1, e.2)

section OnSide

variable {α : Type} {side : Side} {entries : List (List Side × α)}

@[simp] theorem mem_onSide_nil {x : α} : ([], x) ∉ onSide side entries := by
  simp [onSide]

@[simp] theorem mem_onSide_cons {side' : Side} {place : List Side} {x : α} :
    (side' :: place, x) ∈ onSide side entries ↔ side' = side ∧ (place, x) ∈ entries := by
  constructor
  · intro h
    obtain ⟨e, he, h⟩ := List.mem_map.mp h
    cases h
    exact ⟨rfl, he⟩
  · rintro ⟨rfl, h⟩
    exact List.mem_map_of_mem h

@[simp] theorem length_onSide : (onSide side entries).length = entries.length :=
  List.length_map _

theorem map_onSide {β : Type} (g : List Side × α → β) :
    (onSide side entries).map g = entries.map fun e => g (side :: e.1, e.2) :=
  List.map_map

theorem filter_onSide (p : α → Bool) :
    (onSide side entries).filter (fun e => p e.2) = onSide side (entries.filter fun e => p e.2) :=
  List.filter_map

end OnSide

namespace Formula

/-- **The nodes of a formula** with their places, in the order of an evaluation: those of
the left side, those of the right side, and then the node itself. -/
def nodes : Formula → List (List Side × Formula)
  | .condition c => [([], .condition c)]
  | .join op left right =>
    onSide .left left.nodes ++ onSide .right right.nodes ++ [([], .join op left right)]

/-- **The conditions of a formula** with their places, from left to right. -/
def leaves : Formula → List (List Side × Condition)
  | .condition c => [([], c)]
  | .join _ left right => onSide .left left.leaves ++ onSide .right right.leaves

/-- The nodes are what stands at the places of the formula. -/
theorem mem_nodes_iff {f g : Formula} {place : List Side} :
    (place, g) ∈ f.nodes ↔ f.at? place = some g := by
  induction f generalizing place with
  | condition c => cases place <;> simp [nodes, at?, eq_comm]
  | join op left right ihleft ihright =>
    match place with
    | [] => simp [nodes, at?, eq_comm]
    | .left :: place => simp [nodes, at?, ihleft]
    | .right :: place => simp [nodes, at?, ihright]

/-- The conditions are the nodes that are one. -/
theorem mem_leaves_iff {f : Formula} {place : List Side} {c : Condition} :
    (place, c) ∈ f.leaves ↔ f.at? place = some (.condition c) := by
  induction f generalizing place with
  | condition d => cases place <;> simp [leaves, at?, eq_comm]
  | join op left right ihleft ihright =>
    match place with
    | [] => simp [leaves, at?]
    | .left :: place => simp [leaves, at?, ihleft]
    | .right :: place => simp [leaves, at?, ihright]

/-- **The nodes stand in the order of an evaluation.** -/
theorem pairwise_nodes (f : Formula) : f.nodes.Pairwise fun d e => Precedes d.1 e.1 := by
  induction f with
  | condition c => simp [nodes]
  | join op left right ihleft ihright =>
    -- what is on a side is in the order of the side, and the sides are one after the other
    simp only [nodes, onSide, List.pairwise_append, List.pairwise_map, List.mem_append,
      List.mem_map, List.mem_singleton]
    refine ⟨⟨ihleft.imp (.sameSide .left), ihright.imp (.sameSide .right), ?_⟩, by simp, ?_⟩
    · rintro _ ⟨d, -, rfl⟩ _ ⟨e, -, rfl⟩
      exact .across d.1 e.1
    · rintro _ (⟨d, -, rfl⟩ | ⟨d, -, rfl⟩) _ rfl
      · exact .inside .left d.1
      · exact .inside .right d.1

/-- The conditions with their places are the conditions in their order. -/
theorem map_snd_leaves (f : Formula) : f.leaves.map Prod.snd = f.conditions := by
  induction f with
  | condition c => rfl
  | join op left right ihleft ihright =>
    simp [leaves, conditions, map_onSide, ← ihleft, ← ihright]

/-- A formula has twice as many nodes as conditions, less one. -/
theorem length_nodes (f : Formula) : f.nodes.length + 1 = 2 * f.conditions.length := by
  induction f with
  | condition c => rfl
  | join op left right ihleft ihright =>
    simp only [nodes, conditions, List.length_append, length_onSide, List.length_singleton]
    omega

/-- The root is the last node. -/
theorem getLast?_nodes (f : Formula) : f.nodes.getLast? = some ([], f) := by
  cases f with
  | condition c => rfl
  | join op left right => simp [nodes]

end Formula

/-! ## The lines of a report -/

/-- What a line says of a node before its verdict: a condition in words, or a connective
with the verdicts of its sides. -/
def Formula.summary (record : Record) : Formula → String
  | .condition c => c.description
  | .join op left right =>
    op.text ++ " (" ++ toString (left.holds record) ++ ", " ++ toString (right.holds record) ++ ")"

/-- **The line of a node**: its path, what it is, and its verdict. -/
def Formula.line (record : Record) (path : String) (f : Formula) : String :=
  path ++ ": " ++ f.summary record ++ " => " ++ verdictText (f.holds record)

/-- The line of a condition that holds. -/
def Condition.line (path : String) (c : Condition) : String := path ++ ": " ++ c.description

/-- **What a line tells of its node**, read off its end. -/
def TellsMatch (line : String) : Prop := " => MATCHED".toList <:+ line.toList

theorem Formula.tellsMatch_line {record : Record} {path : String} {f : Formula} :
    TellsMatch (f.line record path) ↔ f.holds record := by
  have hline : (f.line record path).toList = (path ++ ": " ++ f.summary record).toList
      ++ (" => " ++ verdictText (f.holds record)).toList := by
    rw [← String.toList_append, line, String.append_assoc]
  have hsuffix := List.suffix_append (path ++ ": " ++ f.summary record).toList
    (" => " ++ verdictText (f.holds record)).toList
  rw [← hline] at hsuffix
  cases hverdict : f.holds record with
  | true =>
    rw [hverdict] at hsuffix
    exact iff_of_true hsuffix rfl
  | false =>
    rw [hverdict] at hsuffix
    refine iff_of_false (fun htells => ?_) Bool.false_ne_true
    exact absurd (List.suffix_of_suffix_length_le htells hsuffix (by decide)) (by decide)

/-- The line that an evaluation writes about a condition is the line of the node. -/
theorem Condition.traceLine_eq (c : Condition) (path : String) (record : Record) :
    c.traceLine path (c.holds record) = (Formula.condition c).line record path :=
  rfl

/-- The line that it writes about a connective is the line of the node. -/
theorem Connective.traceLine_eq (op : Connective) (path : String) (record : Record)
    (left right : Formula) :
    op.traceLine path (left.holds record) (right.holds record)
      = (Formula.join op left right).line record path := by
  simp [traceLine, Formula.line, Formula.summary, Formula.holds, String.append_assoc]

/-- **The report on a formula.** Its verdict is that of the formula, its conditions are
those that hold, and its trace has the lines of all nodes, if one is asked for. -/
theorem Formula.run_eq (traced : Bool) (record : Record) (path : String) (f : Formula) :
    f.run traced record path =
      { verdict := f.holds record
        conditions := (f.leaves.filter fun e => e.2.holds record).map
          fun e => e.2.line (pathTo path e.1)
        trace :=
          if traced then f.nodes.map fun e => e.2.line record (pathTo path e.1) else [] } := by
  induction f generalizing path with
  | condition c =>
    simp only [run, Condition.report, Condition.traceLine_eq]
    cases hverdict : c.holds record <;>
      simp [holds, leaves, nodes, pathTo, Condition.line, hverdict]
  | join op left right ihleft ihright =>
    have hfilter (side : Side) (entries : List (List Side × Condition)) :
        (onSide side entries).filter (fun e => e.2.holds record)
          = onSide side (entries.filter fun e => e.2.holds record) :=
      filter_onSide fun c : Condition => c.holds record
    rw [run, ihleft, ihright]
    simp only [Connective.report, Connective.traceLine_eq, holds, leaves, nodes,
      List.filter_append, hfilter, List.map_append, map_onSide, pathTo]
    cases traced <;> rfl

/-- The verdict of a report is the verdict alone. -/
theorem verdict_run (traced : Bool) (record : Record) (path : String) (f : Formula) :
    (f.run traced record path).verdict = f.holds record := by
  rw [Formula.run_eq]

/-- No two nodes have the same path. -/
theorem Formula.nodup_paths (f : Formula) (path : String) :
    (f.nodes.map fun e => pathTo path e.1).Nodup := by
  rw [List.nodup_iff_pairwise_ne, List.pairwise_map]
  exact f.pairwise_nodes.imp fun h => (pathTo_injective path).ne h.ne

/-- **The report on a rule mirrors its formula.** With a trace there is one line for each
node: what has a line is what stands at a place of the formula, the lines come in the order
of an evaluation and begin with different paths, each tells the verdict of its node, and
there are twice as many as there are conditions, less one. Without a trace there is none.
Either way the conditions that are reported are those that hold, from left to right, each
with its path, and the verdict is that of the formula, which is also what the last line
tells. -/
theorem runRule_mirrors (f : Formula) (record : Record) :
    ((runRule true (some f) record).trace
        = f.nodes.map (fun e => e.2.line record (pathTo rootPath e.1)) ∧
      (∀ place g, (place, g) ∈ f.nodes ↔ f.at? place = some g) ∧
      (f.nodes.Pairwise fun d e => Precedes d.1 e.1) ∧
      (f.nodes.map fun e => pathTo rootPath e.1).Nodup ∧
      (∀ path g, TellsMatch (Formula.line record path g) ↔ g.holds record) ∧
      (runRule true (some f) record).trace.length = 2 * f.conditions.length - 1) ∧
    (runRule false (some f) record).trace = [] ∧
    (∀ traced, (runRule traced (some f) record).conditions
      = (f.leaves.filter fun e => e.2.holds record).map fun e => e.2.line (pathTo rootPath e.1)) ∧
    (f.leaves.map Prod.snd = f.conditions ∧
      ∀ place c, (place, c) ∈ f.leaves ↔ f.at? place = some (.condition c)) ∧
    (∀ traced, (runRule traced (some f) record).verdict = ruleHolds (some f) record) ∧
    ∃ last, (runRule true (some f) record).trace.getLast? = some last ∧
      (TellsMatch last ↔ ruleHolds (some f) record) := by
  have hrun (traced : Bool) := f.run_eq traced record rootPath
  have htrace : (runRule true (some f) record).trace
      = f.nodes.map fun e => e.2.line record (pathTo rootPath e.1) :=
    congrArg Report.trace (hrun true)
  refine ⟨⟨htrace, fun _ _ => f.mem_nodes_iff, f.pairwise_nodes, f.nodup_paths rootPath,
    fun _ _ => Formula.tellsMatch_line, ?_⟩, congrArg Report.trace (hrun false),
    fun traced => congrArg Report.conditions (hrun traced),
    ⟨f.map_snd_leaves, fun _ _ => f.mem_leaves_iff⟩,
    fun traced => congrArg Report.verdict (hrun traced), f.line record rootPath, ?_,
    Formula.tellsMatch_line⟩
  · rw [htrace, List.length_map, ← f.length_nodes, Nat.add_sub_cancel]
  · rw [htrace, List.getLast?_map, f.getLast?_nodes]
    rfl

end Rulebook
