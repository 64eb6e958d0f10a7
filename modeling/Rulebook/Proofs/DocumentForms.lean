import Mathlib.Data.List.Nodup
import Rulebook.Formula.Document
import Rulebook.Proofs.Json.Keys
import Rulebook.Proofs.Json.Reading

/-!
# The forms in which formulas are written

The decoder of formulas goes through the members of a node one after the other,
remembers what it has read, and accepts rows of items as well. What it accepts can be
said without any of this: a node is a document that has certain things under certain
keys, or a row that has them in certain places (`Formula.Written`).

Every reader of members keeps one place for each key that it knows, and the places do
not touch one another. So a reader is put down key by key (`GivenOnce`), and the one
lemma about keys (`givenOnce_none_iff`) turns each of them into look-ups. Whatever is
decoded was written (`Formula.written_of_ofNode`), and what is written is decoded if no
object repeats a key (`Formula.ofNode_of_written`).
-/

namespace Rulebook

open Json (lookupLast)

variable {α : Type} {key : String} {members : List (String × Json)}

/-! ## One key of a reader -/

/-- **What a reader of members makes of one key.** The key is given once, by the members
or `before` them, and what is given is read as `x`. -/
def GivenOnce (key : String) (read : Json → Except Mismatch α) :
    (before : Option α) → List (String × Json) → (x : α) → Prop
  | before, [], x => before = some x
  | before, (k, doc) :: members, x =>
    if k = key then
      before = none ∧ ∃ y, read doc = .ok y ∧ GivenOnce key read (some y) members x
    else GivenOnce key read before members x

variable {read : Json → Except Mismatch α} {before : Option α} {k : String} {doc : Json} {x : α}

theorem givenOnce_cons_of_ne (h : k ≠ key) :
    GivenOnce key read before ((k, doc) :: members) x ↔ GivenOnce key read before members x := by
  rw [GivenOnce, if_neg h]

theorem givenOnce_cons_self :
    GivenOnce key read before ((key, doc) :: members) x ↔
      before = none ∧ ∃ y, read doc = .ok y ∧ GivenOnce key read (some y) members x := by
  rw [GivenOnce, if_pos rfl]

/-- A key that was given before is not given again. -/
theorem givenOnce_some_iff {y : α} :
    GivenOnce key read (some y) members x ↔ key ∉ members.map Prod.fst ∧ y = x := by
  induction members with
  | nil => simp [GivenOnce]
  | cons first members ih =>
    obtain ⟨k, doc⟩ := first
    by_cases hkey : k = key
    · subst hkey
      simp [givenOnce_cons_self]
    · rw [givenOnce_cons_of_ne hkey, ih]
      simp [Ne.symm hkey]

/-- **What is given once is what is found.** -/
theorem exists_lookupLast_of_givenOnce (h : GivenOnce key read none members x) :
    ∃ doc, lookupLast key members = some doc ∧ read doc = .ok x := by
  induction members with
  | nil => cases h
  | cons first members ih =>
    obtain ⟨k, doc⟩ := first
    rw [lookupLast]
    by_cases hkey : k = key
    · subst hkey
      obtain ⟨-, y, hread, hrest⟩ := givenOnce_cons_self.mp h
      obtain ⟨hnot, rfl⟩ := givenOnce_some_iff.mp hrest
      rw [Json.lookupLast_eq_none hnot, if_pos rfl]
      exact ⟨doc, rfl, hread⟩
    · obtain ⟨found, hfound, hread⟩ := ih ((givenOnce_cons_of_ne hkey).mp h)
      rw [hfound]
      exact ⟨found, rfl, hread⟩

theorem count_le_one_of_givenOnce (h : GivenOnce key read none members x) :
    (members.map Prod.fst).count key ≤ 1 := by
  induction members with
  | nil => cases h
  | cons first members ih =>
    obtain ⟨k, doc⟩ := first
    by_cases hkey : k = key
    · subst hkey
      obtain ⟨-, y, -, hrest⟩ := givenOnce_cons_self.mp h
      rw [List.map_cons, List.count_cons_self,
        List.count_eq_zero.mpr (givenOnce_some_iff.mp hrest).1]
    · rw [List.map_cons, List.count_cons_of_ne hkey]
      exact ih ((givenOnce_cons_of_ne hkey).mp h)

theorem read_of_givenOnce (h : GivenOnce key read none members x) (hdoc : (key, doc) ∈ members) :
    read doc = .ok x := by
  induction members with
  | nil => cases h
  | cons first members ih =>
    obtain ⟨k, value⟩ := first
    by_cases hkey : k = key
    · subst hkey
      obtain ⟨-, y, hread, hrest⟩ := givenOnce_cons_self.mp h
      obtain ⟨hnot, rfl⟩ := givenOnce_some_iff.mp hrest
      rcases List.mem_cons.mp hdoc with heq | hmem
      · cases heq
        exact hread
      · exact (hnot (List.mem_map.mpr ⟨_, hmem, rfl⟩)).elim
    · rcases List.mem_cons.mp hdoc with heq | hmem
      · cases heq
        exact (hkey rfl).elim
      · exact ih ((givenOnce_cons_of_ne hkey).mp h) hmem

/-- **What is found is given once**, if no key is repeated. -/
theorem givenOnce_none_iff (hkeys : (members.map Prod.fst).Nodup) :
    GivenOnce key read none members x ↔
      ∃ doc, lookupLast key members = some doc ∧ read doc = .ok x := by
  refine ⟨exists_lookupLast_of_givenOnce, ?_⟩
  rintro ⟨doc, hfound, hread⟩
  induction members with
  | nil => cases hfound
  | cons first members ih =>
    obtain ⟨k, value⟩ := first
    rw [List.map_cons, List.nodup_cons] at hkeys
    rw [lookupLast] at hfound
    by_cases hkey : k = key
    · subst hkey
      rw [Json.lookupLast_eq_none hkeys.1, if_pos rfl] at hfound
      cases hfound
      exact givenOnce_cons_self.mpr ⟨rfl, x, hread, givenOnce_some_iff.mpr ⟨hkeys.1, rfl⟩⟩
    · refine (givenOnce_cons_of_ne hkey).mpr (ih hkeys.2 ?_)
      cases hlater : lookupLast key members with
      | some found => rwa [hlater] at hfound
      | none =>
        rw [hlater, if_neg hkey] at hfound
        cases hfound

/-- That a key is given once at most, by the members or before them. -/
def GivenAtMostOnce (key : String) (before : Bool) (members : List (String × Json)) : Prop :=
  before.toNat + (members.map Prod.fst).count key ≤ 1

theorem givenAtMostOnce_cons_self {before : Bool} :
    GivenAtMostOnce key before ((key, doc) :: members) ↔
      before = false ∧ GivenAtMostOnce key true members := by
  unfold GivenAtMostOnce
  rw [List.map_cons, List.count_cons_self]
  cases before with
  | false => simp
  | true => simp

theorem givenAtMostOnce_cons_of_ne {before : Bool} (h : k ≠ key) :
    GivenAtMostOnce key before ((k, doc) :: members) ↔ GivenAtMostOnce key before members := by
  unfold GivenAtMostOnce
  rw [List.map_cons, List.count_cons_of_ne h]

theorem givenAtMostOnce_false (hkeys : (members.map Prod.fst).Nodup) :
    GivenAtMostOnce key false members := by
  have hcount : (members.map Prod.fst).count key ≤ 1 :=
    List.nodup_iff_count_le_one.mp hkeys key
  unfold GivenAtMostOnce
  simpa using hcount

/-! ## The readers of members -/

/-- A member that may be given once is read if it was not given before. -/
theorem readOnce_eq_ok_iff {β : Type} {next : α → Except Mismatch β} {result : β} :
    (if before.isSome then .error (.repeated key) else read doc >>= next) = .ok result ↔
      before = none ∧ ∃ y, read doc = .ok y ∧ next y = .ok result := by
  cases before with
  | some y => simp
  | none =>
    cases hread : read doc with
    | error fault => simp [bind, Except.bind]
    | ok y => simp [bind, Except.bind]

theorem Condition.ofMembers_eq_ok_iff {parts : ConditionParts} {c : Condition} :
    ofMembers parts members = .ok c ↔
      GivenOnce "condition" Json.readText parts.field members c.field ∧
        GivenOnce "operator" Comparator.ofDocument parts.comparator members c.comparator ∧
        GivenOnce "value" Value.ofDocument parts.literal members c.literal := by
  induction members generalizing parts with
  | nil =>
    obtain ⟨field, comparator, literal⟩ := parts
    obtain ⟨field', comparator', literal'⟩ := c
    cases field <;> cases comparator <;> cases literal <;>
      simp [ofMembers, ConditionParts.whole, GivenOnce]
  | cons first members ih =>
    obtain ⟨k, doc⟩ := first
    rw [ofMembers]
    by_cases hfield : k = "condition"
    · subst hfield
      rw [if_pos rfl, readOnce_eq_ok_iff, givenOnce_cons_self, givenOnce_cons_of_ne (by decide),
        givenOnce_cons_of_ne (by decide)]
      simp only [ih]
      tauto
    rw [if_neg hfield, givenOnce_cons_of_ne hfield]
    by_cases hcomparator : k = "operator"
    · subst hcomparator
      rw [if_pos rfl, readOnce_eq_ok_iff, givenOnce_cons_self, givenOnce_cons_of_ne (by decide)]
      simp only [ih]
      tauto
    rw [if_neg hcomparator, givenOnce_cons_of_ne hcomparator]
    by_cases hliteral : k = "value"
    · subst hliteral
      rw [if_pos rfl, readOnce_eq_ok_iff, givenOnce_cons_self]
      simp only [ih]
      tauto
    · rw [if_neg hliteral, givenOnce_cons_of_ne hliteral]
      exact ih

theorem NodeKind.ofMembers_eq_ok_iff {outermost : Bool} {found : Option NodeKind}
    {kind : NodeKind} :
    ofMembers outermost found members = .ok kind ↔
      GivenOnce "type" (ofDocument outermost) found members kind := by
  induction members generalizing found with
  | nil => cases found <;> simp [ofMembers, GivenOnce]
  | cons first members ih =>
    obtain ⟨k, doc⟩ := first
    rw [ofMembers]
    by_cases hkey : k = "type"
    · subst hkey
      rw [if_pos rfl, readOnce_eq_ok_iff, givenOnce_cons_self]
      simp only [ih]
    · rw [if_neg hkey, givenOnce_cons_of_ne hkey]
      exact ih

namespace Formula

theorem operandOfMembers_eq_ok_iff {parts : OperandParts} {f : Formula} :
    operandOfMembers parts members = .ok f ↔
      ∃ c, f = .condition c ∧ GivenOnce "value" Condition.ofDocument parts.condition members c ∧
        GivenAtMostOnce "left" parts.left members ∧
        GivenAtMostOnce "right" parts.right members := by
  induction members generalizing parts with
  | nil =>
    obtain ⟨left, right, condition⟩ := parts
    cases condition <;> cases left <;> cases right <;>
      simp [operandOfMembers, GivenOnce, GivenAtMostOnce, eq_comm]
  | cons first members ih =>
    obtain ⟨k, doc⟩ := first
    rw [operandOfMembers]
    by_cases hleft : k = "left"
    · subst hleft
      simp only [givenAtMostOnce_cons_self, givenOnce_cons_of_ne (show "left" ≠ "value" by decide),
        givenAtMostOnce_cons_of_ne (show "left" ≠ "right" by decide)]
      cases hgiven : parts.left with
      | true => simp
      | false => simp [ih]
    rw [if_neg hleft]
    simp only [givenAtMostOnce_cons_of_ne hleft]
    by_cases hright : k = "right"
    · subst hright
      simp only [givenAtMostOnce_cons_self,
        givenOnce_cons_of_ne (show "right" ≠ "value" by decide)]
      cases hgiven : parts.right with
      | true => simp
      | false => simp [ih]
    rw [if_neg hright]
    simp only [givenAtMostOnce_cons_of_ne hright]
    by_cases hvalue : k = "value"
    · subst hvalue
      simp only [if_pos, readOnce_eq_ok_iff, givenOnce_cons_self, ih]
      tauto
    · simp only [if_neg hvalue, givenOnce_cons_of_ne hvalue]
      exact ih

theorem operatorOfMembers_eq_ok_iff {parts : OperatorParts} {f : Formula} :
    operatorOfMembers parts members = .ok f ↔
      ∃ op left right, f = .join op left right ∧
        GivenOnce "left" (ofNode false) parts.left members left ∧
        GivenOnce "right" (ofNode false) parts.right members right ∧
        GivenOnce "value" Connective.ofDocument parts.op members op := by
  induction members generalizing parts with
  | nil =>
    obtain ⟨left, right, op⟩ := parts
    cases left <;> cases right <;> cases op <;>
      simp [operatorOfMembers, OperatorParts.whole, GivenOnce, eq_comm]
  | cons first members ih =>
    obtain ⟨k, doc⟩ := first
    rw [operatorOfMembers]
    by_cases hleft : k = "left"
    · subst hleft
      simp only [if_pos, readOnce_eq_ok_iff, givenOnce_cons_self, ih,
        givenOnce_cons_of_ne (show "left" ≠ "right" by decide),
        givenOnce_cons_of_ne (show "left" ≠ "value" by decide)]
      tauto
    rw [if_neg hleft]
    simp only [givenOnce_cons_of_ne hleft]
    by_cases hright : k = "right"
    · subst hright
      simp only [if_pos, readOnce_eq_ok_iff, givenOnce_cons_self, ih,
        givenOnce_cons_of_ne (show "right" ≠ "value" by decide)]
      tauto
    rw [if_neg hright]
    simp only [givenOnce_cons_of_ne hright]
    by_cases hvalue : k = "value"
    · subst hvalue
      simp only [if_pos, readOnce_eq_ok_iff, givenOnce_cons_self, ih]
      tauto
    · simp only [if_neg hvalue, givenOnce_cons_of_ne hvalue]
      exact ih

end Formula

/-! ## The forms -/

theorem Json.readText_eq_ok_iff {doc : Json} {s : String} :
    doc.readText = .ok s ↔ doc = .string s := by
  cases doc <;> simp [readText]

theorem Comparator.ofDocument_eq_ok_iff {doc : Json} {c : Comparator} :
    ofDocument doc = .ok c ↔ ∃ text, doc = .string text ∧ c = ofText text := by
  cases doc <;> simp [ofDocument, Json.readText, bind, Except.bind, pure, Except.pure, eq_comm]

theorem Connective.ofDocument_eq_ok_iff {doc : Json} {op : Connective} :
    ofDocument doc = .ok op ↔ ∃ text, doc = .string text ∧ op = ofText text := by
  cases doc <;> simp [ofDocument, Json.readText, bind, Except.bind, pure, Except.pure, eq_comm]

/-- **That a document writes a condition**: with members, or as a row of items. Its
literal is a single value. -/
inductive Condition.Written : Json → Condition → Prop where
  /-- An object with the field, the comparator and the literal under their keys. -/
  | members {doc value : Json} {field comparator : String} {literal : Value}
      (hfield : doc.get? "condition" = some (.string field))
      (hcomparator : doc.get? "operator" = some (.string comparator))
      (hvalue : doc.get? "value" = some value) (hliteral : Value.ofDocument value = .ok literal) :
      Written doc ⟨field, .ofText comparator, literal⟩
  /-- The three of them in a row. -/
  | items {value : Json} {field comparator : String} {literal : Value}
      (hliteral : Value.ofDocument value = .ok literal) :
      Written (.array [.string field, .string comparator, value])
        ⟨field, .ofText comparator, literal⟩

/-- **That a document names a kind of node.** Inside another node a number does, too. -/
inductive NodeKind.Named (outermost : Bool) : Json → NodeKind → Prop where
  /-- The name of an operator. -/
  | operator : Named outermost (.string "operator") .operator
  /-- The name of an operand. -/
  | operand : Named outermost (.string "operand") .operand
  /-- The number of an operator. -/
  | zero (h : outermost = false) : Named outermost (.number (.integer 0)) .operator
  /-- The number of an operand. -/
  | one (h : outermost = false) : Named outermost (.number (.integer 1)) .operand

/-- **That a document writes a formula.** A node is written with members or as a row of
items, its kind first; what stands in the sides of an operand does not matter. -/
inductive Formula.Written : (outermost : Bool) → Json → Formula → Prop where
  /-- An object with a kind, two sides and a connective. -/
  | operator {outermost : Bool} {doc kind left right : Json} {op : String} {f g : Formula}
      (htype : doc.get? "type" = some kind) (hkind : NodeKind.Named outermost kind .operator)
      (hleft : doc.get? "left" = some left) (hright : doc.get? "right" = some right)
      (hop : doc.get? "value" = some (.string op))
      (hf : Written false left f) (hg : Written false right g) :
      Written outermost doc (.join (.ofText op) f g)
  /-- An object with a kind and a condition. -/
  | operand {outermost : Bool} {doc kind value : Json} {c : Condition}
      (htype : doc.get? "type" = some kind) (hkind : NodeKind.Named outermost kind .operand)
      (hvalue : doc.get? "value" = some value) (hc : Condition.Written value c) :
      Written outermost doc (.condition c)
  /-- A kind, two sides and a connective in a row. -/
  | operatorRow {outermost : Bool} {kind left right : Json} {op : String} {f g : Formula}
      (hkind : NodeKind.Named outermost kind .operator)
      (hf : Written false left f) (hg : Written false right g) :
      Written outermost (.array [kind, left, right, .string op]) (.join (.ofText op) f g)
  /-- A kind, two sides of any form and a condition in a row. -/
  | operandRow {outermost : Bool} {kind left right value : Json} {c : Condition}
      (hkind : NodeKind.Named outermost kind .operand) (hc : Condition.Written value c) :
      Written outermost (.array [kind, left, right, value]) (.condition c)

/-! ## What is decoded was written -/

theorem NodeKind.ofName_eq_ok_iff {name : String} {kind : NodeKind} :
    ofName name = .ok kind ↔
      (name = "operator" ∧ kind = .operator) ∨ (name = "operand" ∧ kind = .operand) := by
  unfold ofName
  split
  · subst_vars
    simp [eq_comm]
  · split
    · subst_vars
      simp [eq_comm]
    · simp [*]

theorem NodeKind.ofDocument_eq_ok_iff {outermost : Bool} {doc : Json} {kind : NodeKind} :
    ofDocument outermost doc = .ok kind ↔ Named outermost doc kind := by
  constructor
  · intro h
    cases doc with
    | string name =>
      obtain ⟨rfl, rfl⟩ | ⟨rfl, rfl⟩ := ofName_eq_ok_iff.mp h
      · exact .operator
      · exact .operand
    | number n =>
      cases n with
      | real x => cases h
      | integer n =>
        rw [ofDocument] at h
        split at h
        · cases h
        · rename_i hinner
          rw [not_or, Bool.not_eq_true] at hinner
          split at h
          · subst_vars
            cases h
            exact .zero hinner.1
          · split at h
            · subst_vars
              cases h
              exact .one hinner.1
            · cases h
    | null => cases h
    | bool b => cases h
    | array items => cases h
    | object members => cases h
  · rintro (_ | _ | rfl | rfl) <;> rfl

/-- The conditions of rows are those of three items. -/
theorem Condition.ofItems_eq_ok_iff {items : List Json} {c : Condition} :
    ofItems items = .ok c ↔ ∃ field comparator value literal,
      items = [.string field, .string comparator, value] ∧ Value.ofDocument value = .ok literal ∧
        c = ⟨field, .ofText comparator, literal⟩ := by
  constructor
  · intro h
    cases items with
    | nil => cases h
    | cons field items =>
      obtain ⟨name, hfield, h⟩ := bind_eq_ok_iff.mp h
      cases items with
      | nil => cases h
      | cons comparator items =>
        obtain ⟨known, hcomparator, h⟩ := bind_eq_ok_iff.mp h
        cases items with
        | nil => cases h
        | cons value surplus =>
          obtain ⟨literal, hliteral, h⟩ := bind_eq_ok_iff.mp h
          cases surplus with
          | cons item items => cases h
          | nil =>
            cases h
            obtain rfl := Json.readText_eq_ok_iff.mp hfield
            obtain ⟨text, rfl, rfl⟩ := Comparator.ofDocument_eq_ok_iff.mp hcomparator
            exact ⟨name, text, value, literal, rfl, hliteral, rfl⟩
  · rintro ⟨field, comparator, value, literal, rfl, hliteral, rfl⟩
    show (Value.ofDocument value >>= _) = _
    rw [hliteral]
    rfl

theorem Condition.written_of_ofDocument {doc : Json} {c : Condition} (h : ofDocument doc = .ok c) :
    Written doc c := by
  cases doc with
  | object members =>
    obtain ⟨name, comparator, literal⟩ := c
    obtain ⟨givenField, givenComparator, givenLiteral⟩ := ofMembers_eq_ok_iff.mp h
    obtain ⟨field, hfield, hread⟩ := exists_lookupLast_of_givenOnce givenField
    obtain rfl := Json.readText_eq_ok_iff.mp hread
    obtain ⟨known, hcomparator, hread⟩ := exists_lookupLast_of_givenOnce givenComparator
    obtain ⟨text, rfl, rfl⟩ := Comparator.ofDocument_eq_ok_iff.mp hread
    obtain ⟨value, hvalue, hliteral⟩ := exists_lookupLast_of_givenOnce givenLiteral
    exact .members hfield hcomparator hvalue hliteral
  | array items =>
    obtain ⟨field, comparator, value, literal, rfl, hliteral, rfl⟩ := ofItems_eq_ok_iff.mp h
    exact .items hliteral
  | _ => cases h

/-- **A condition that is written is decoded**, if no object repeats a key. -/
theorem Condition.ofDocument_of_written {doc : Json} {c : Condition} (h : Written doc c)
    (hkeys : doc.hasDistinctKeys) : ofDocument doc = .ok c := by
  cases h with
  | members hfield hcomparator hvalue hliteral =>
    cases doc with
    | object members =>
      have hnodup := Json.nodup_keys_of_hasDistinctKeys hkeys
      refine ofMembers_eq_ok_iff.mpr ⟨(givenOnce_none_iff hnodup).mpr ⟨_, hfield, rfl⟩,
        (givenOnce_none_iff hnodup).mpr ⟨_, hcomparator, rfl⟩,
        (givenOnce_none_iff hnodup).mpr ⟨_, hvalue, hliteral⟩⟩
    | _ => cases hfield
  | items hliteral => exact ofItems_eq_ok_iff.mpr ⟨_, _, _, _, rfl, hliteral, rfl⟩

namespace Formula

theorem operandOfItems_eq_ok_iff {items : List Json} {f : Formula} :
    operandOfItems items = .ok f ↔ ∃ left right value c,
      items = [left, right, value] ∧ Condition.ofDocument value = .ok c ∧ f = .condition c := by
  constructor
  · intro h
    unfold operandOfItems at h
    split at h
    · rename_i left right value surplus
      obtain ⟨c, hc, h⟩ := bind_eq_ok_iff.mp h
      cases surplus with
      | cons item items => cases h
      | nil =>
        cases h
        exact ⟨left, right, value, c, rfl, hc, rfl⟩
    · cases h
  · rintro ⟨left, right, value, c, rfl, hc, rfl⟩
    show (Condition.ofDocument value >>= _) = _
    rw [hc]
    rfl

theorem operatorOfItems_eq_ok_iff {items : List Json} {f : Formula} :
    operatorOfItems items = .ok f ↔ ∃ left right value f' g op,
      items = [left, right, value] ∧ ofNode false left = .ok f' ∧ ofNode false right = .ok g ∧
        Connective.ofDocument value = .ok op ∧ f = .join op f' g := by
  constructor
  · intro h
    unfold operatorOfItems at h
    split at h
    · cases h
    · obtain ⟨_, _, h⟩ := bind_eq_ok_iff.mp h
      cases h
    · obtain ⟨_, _, h⟩ := bind_eq_ok_iff.mp h
      obtain ⟨_, _, h⟩ := bind_eq_ok_iff.mp h
      cases h
    · rename_i left right value surplus
      obtain ⟨f', hf', h⟩ := bind_eq_ok_iff.mp h
      obtain ⟨g, hg, h⟩ := bind_eq_ok_iff.mp h
      obtain ⟨op, hop, h⟩ := bind_eq_ok_iff.mp h
      cases surplus with
      | cons item items => cases h
      | nil =>
        cases h
        exact ⟨left, right, value, f', g, op, rfl, hf', hg, hop, rfl⟩
  · rintro ⟨left, right, value, f', g, op, rfl, hf', hg, hop, rfl⟩
    rw [operatorOfItems, hf', hg, hop]
    rfl

/-- **What is decoded was written.** -/
theorem written_of_ofNode {outermost : Bool} {doc : Json} {f : Formula}
    (h : ofNode outermost doc = .ok f) : Written outermost doc f := by
  -- the sides of a node are smaller than the node
  induction hn : sizeOf doc using Nat.strongRecOn generalizing outermost doc f with
  | ind n ih =>
    cases doc with
    | object members =>
      rw [ofNode] at h
      obtain ⟨kind, hkind, h⟩ := bind_eq_ok_iff.mp h
      obtain ⟨type, htype, hkind⟩ :=
        exists_lookupLast_of_givenOnce (NodeKind.ofMembers_eq_ok_iff.mp hkind)
      rw [NodeKind.ofDocument_eq_ok_iff] at hkind
      cases kind with
      | operator =>
        obtain ⟨op, f, g, rfl, hf, hg, hop⟩ := operatorOfMembers_eq_ok_iff.mp h
        obtain ⟨left, hleft, hf⟩ := exists_lookupLast_of_givenOnce hf
        obtain ⟨right, hright, hg⟩ := exists_lookupLast_of_givenOnce hg
        obtain ⟨value, hvalue, hop⟩ := exists_lookupLast_of_givenOnce hop
        obtain ⟨text, rfl, rfl⟩ := Connective.ofDocument_eq_ok_iff.mp hop
        have hside {key : String} {side : Json}
            (hget : (Json.object members).get? key = some side) : sizeOf side < n :=
          hn ▸ Json.sizeOf_lt_of_get? hget
        exact .operator htype hkind hleft hright hvalue (ih _ (hside hleft) hf rfl)
          (ih _ (hside hright) hg rfl)
      | operand =>
        obtain ⟨c, rfl, hc, -, -⟩ := operandOfMembers_eq_ok_iff.mp h
        obtain ⟨value, hvalue, hc⟩ := exists_lookupLast_of_givenOnce hc
        exact .operand htype hkind hvalue (Condition.written_of_ofDocument hc)
    | array items =>
      cases items with
      | nil => rw [ofNode] at h; cases h
      | cons type items =>
        rw [ofNode] at h
        obtain ⟨kind, hkind, h⟩ := bind_eq_ok_iff.mp h
        rw [NodeKind.ofDocument_eq_ok_iff] at hkind
        cases kind with
        | operator =>
          obtain ⟨left, right, value, f, g, op, rfl, hf, hg, hop, rfl⟩ :=
            operatorOfItems_eq_ok_iff.mp h
          obtain ⟨text, rfl, rfl⟩ := Connective.ofDocument_eq_ok_iff.mp hop
          have hleft : sizeOf left < n := by
            subst hn
            simp
            omega
          have hright : sizeOf right < n := by
            subst hn
            simp
            omega
          exact .operatorRow hkind (ih _ hleft hf rfl) (ih _ hright hg rfl)
        | operand =>
          obtain ⟨left, right, value, c, rfl, hc, rfl⟩ := operandOfItems_eq_ok_iff.mp h
          exact .operandRow hkind (Condition.written_of_ofDocument hc)
    | _ => simp [ofNode] at h

/-! ## What is written is decoded -/

/-- **What is written is decoded**, if no object repeats a key. -/
theorem ofNode_of_written {outermost : Bool} {doc : Json} {f : Formula}
    (h : Written outermost doc f) (hkeys : doc.hasDistinctKeys) :
    ofNode outermost doc = .ok f := by
  induction h with
  | @operator outermost doc kind left right op f g htype hkind hleft hright hop _ _ ihf ihg =>
    cases doc with
    | object members =>
      have hnodup := Json.nodup_keys_of_hasDistinctKeys hkeys
      have hmembers : operatorOfMembers ⟨none, none, none⟩ members = .ok (.join (.ofText op) f g) :=
        operatorOfMembers_eq_ok_iff.mpr ⟨.ofText op, f, g, rfl,
          (givenOnce_none_iff hnodup).mpr
            ⟨left, hleft, ihf (Json.hasDistinctKeys_of_get? hkeys hleft)⟩,
          (givenOnce_none_iff hnodup).mpr
            ⟨right, hright, ihg (Json.hasDistinctKeys_of_get? hkeys hright)⟩,
          (givenOnce_none_iff hnodup).mpr ⟨_, hop, rfl⟩⟩
      rw [ofNode]
      refine bind_eq_ok_iff.mpr ⟨.operator, NodeKind.ofMembers_eq_ok_iff.mpr ?_, hmembers⟩
      exact (givenOnce_none_iff hnodup).mpr ⟨kind, htype, NodeKind.ofDocument_eq_ok_iff.mpr hkind⟩
    | _ => cases htype
  | @operand outermost doc kind value c htype hkind hvalue hc =>
    cases doc with
    | object members =>
      have hnodup := Json.nodup_keys_of_hasDistinctKeys hkeys
      have hmembers : operandOfMembers ⟨false, false, none⟩ members = .ok (.condition c) :=
        operandOfMembers_eq_ok_iff.mpr ⟨c, rfl,
          (givenOnce_none_iff hnodup).mpr ⟨value, hvalue,
            Condition.ofDocument_of_written hc (Json.hasDistinctKeys_of_get? hkeys hvalue)⟩,
          givenAtMostOnce_false hnodup, givenAtMostOnce_false hnodup⟩
      rw [ofNode]
      refine bind_eq_ok_iff.mpr ⟨.operand, NodeKind.ofMembers_eq_ok_iff.mpr ?_, hmembers⟩
      exact (givenOnce_none_iff hnodup).mpr ⟨kind, htype, NodeKind.ofDocument_eq_ok_iff.mpr hkind⟩
    | _ => cases htype
  | @operatorRow outermost kind left right op f g hkind _ _ ihf ihg =>
    rw [Json.hasDistinctKeys] at hkeys
    have hf := ihf (Json.hasDistinctKeys_of_mem hkeys (by simp))
    have hg := ihg (Json.hasDistinctKeys_of_mem hkeys (by simp))
    rw [ofNode]
    exact bind_eq_ok_iff.mpr ⟨.operator, NodeKind.ofDocument_eq_ok_iff.mpr hkind,
      operatorOfItems_eq_ok_iff.mpr ⟨_, _, _, _, _, _, rfl, hf, hg, rfl, rfl⟩⟩
  | @operandRow outermost kind left right value c hkind hc =>
    rw [Json.hasDistinctKeys] at hkeys
    have hvalue : value.hasDistinctKeys := Json.hasDistinctKeys_of_mem hkeys (by simp)
    rw [ofNode]
    exact bind_eq_ok_iff.mpr ⟨.operand, NodeKind.ofDocument_eq_ok_iff.mpr hkind,
      operandOfItems_eq_ok_iff.mpr
        ⟨_, _, _, _, rfl, Condition.ofDocument_of_written hc hvalue, rfl⟩⟩

theorem ofNode_eq_ok_iff {outermost : Bool} {doc : Json} {f : Formula}
    (hkeys : doc.hasDistinctKeys) : ofNode outermost doc = .ok f ↔ Written outermost doc f :=
  ⟨written_of_ofNode, fun h => ofNode_of_written h hkeys⟩

end Formula

end Rulebook
