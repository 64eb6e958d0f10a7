import Rulebook.Proofs.DocumentForms

/-!
# What the decoder looks at

The decoder of formulas does not look at everything. The order of members does not
matter to it, and neither do members of other keys than its own. `Formula.essence` leaves
those members out at every node, and `Json.sorted` puts the others in order.

A rewriting of documents that keeps what stands under the keys of nodes, up to the
rewriting itself (`Formula.KeepsNodes`), keeps what is written
(`Formula.written_rewritten_iff`). Both ways of rewriting are of this kind, and so two
documents of one sorted essence are decoded alike (`Formula.ofDocument_congr`).
-/

namespace Rulebook

/-! ## Rewriting documents -/

namespace Formula

/-- **A rewriting of documents that keeps nodes**: of what stands under the keys of a node
each is found again, rewritten in its own way. -/
structure KeepsNodes (kind node value : Json → Json) : Prop where
  /-- The type is found again. -/
  get?_type (doc : Json) : (node doc).get? "type" = (doc.get? "type").map kind
  /-- The left side is found again, as a node. -/
  get?_left (doc : Json) : (node doc).get? "left" = (doc.get? "left").map node
  /-- The right side is found again, as a node. -/
  get?_right (doc : Json) : (node doc).get? "right" = (doc.get? "right").map node
  /-- The value is found again. -/
  get?_value (doc : Json) : (node doc).get? "value" = (doc.get? "value").map value
  /-- Rows of four are kept, item by item. -/
  row_iff (doc a b c d : Json) : node doc = .array [a, b, c, d] ↔ ∃ type left right item,
    doc = .array [type, left, right, item] ∧ a = kind type ∧ b = node left ∧ c = node right ∧
      d = value item
  /-- What names a kind keeps its name. -/
  named_iff (outermost : Bool) (doc : Json) (k : NodeKind) :
    NodeKind.Named outermost (kind doc) k ↔ NodeKind.Named outermost doc k
  /-- Texts stay what they are. -/
  text_iff (doc : Json) (text : String) : value doc = .string text ↔ doc = .string text
  /-- Conditions stay what they are. -/
  condition_iff (doc : Json) (c : Condition) :
    Condition.Written (value doc) c ↔ Condition.Written doc c

/-- **What is rewritten and keeps its nodes writes the same formula.** -/
theorem written_rewritten_iff {kind node value : Json → Json} (hkeeps : KeepsNodes kind node value)
    {outermost : Bool} {doc : Json} {f : Formula} :
    Written outermost (node doc) f ↔ Written outermost doc f := by
  constructor
  · intro h
    generalize hdoc : node doc = rewritten at h
    induction h generalizing doc with
    | operator htype hkind hleft hright hop _ _ ihf ihg =>
      subst hdoc
      obtain ⟨type, hfound, rfl⟩ := Option.map_eq_some_iff.mp (hkeeps.get?_type doc ▸ htype)
      obtain ⟨left, hfoundLeft, rfl⟩ := Option.map_eq_some_iff.mp (hkeeps.get?_left doc ▸ hleft)
      obtain ⟨right, hfoundRight, rfl⟩ :=
        Option.map_eq_some_iff.mp (hkeeps.get?_right doc ▸ hright)
      obtain ⟨item, hitem, htext⟩ := Option.map_eq_some_iff.mp (hkeeps.get?_value doc ▸ hop)
      obtain rfl := (hkeeps.text_iff item _).mp htext
      exact .operator hfound ((hkeeps.named_iff ..).mp hkind) hfoundLeft hfoundRight hitem
        (ihf rfl) (ihg rfl)
    | operand htype hkind hvalue hc =>
      subst hdoc
      obtain ⟨type, hfound, rfl⟩ := Option.map_eq_some_iff.mp (hkeeps.get?_type doc ▸ htype)
      obtain ⟨item, hitem, rfl⟩ := Option.map_eq_some_iff.mp (hkeeps.get?_value doc ▸ hvalue)
      exact .operand hfound ((hkeeps.named_iff ..).mp hkind) hitem ((hkeeps.condition_iff ..).mp hc)
    | operatorRow hkind _ _ ihf ihg =>
      obtain ⟨type, left, right, item, rfl, rfl, rfl, rfl, htext⟩ := (hkeeps.row_iff ..).mp hdoc
      obtain rfl := (hkeeps.text_iff item _).mp htext.symm
      exact .operatorRow ((hkeeps.named_iff ..).mp hkind) (ihf rfl) (ihg rfl)
    | operandRow hkind hc =>
      obtain ⟨type, left, right, item, rfl, rfl, -, -, rfl⟩ := (hkeeps.row_iff ..).mp hdoc
      exact .operandRow ((hkeeps.named_iff ..).mp hkind) ((hkeeps.condition_iff ..).mp hc)
  · intro h
    induction h with
    | @operator outermost doc type left right op f g htype hkind hleft hright hop _ _ ihf ihg =>
      refine .operator ?_ ((hkeeps.named_iff outermost type _).mpr hkind) ?_ ?_ ?_ ihf ihg
      · rw [hkeeps.get?_type, htype, Option.map_some]
      · rw [hkeeps.get?_left, hleft, Option.map_some]
      · rw [hkeeps.get?_right, hright, Option.map_some]
      · rw [hkeeps.get?_value, hop, Option.map_some, (hkeeps.text_iff ..).mpr rfl]
    | @operand outermost doc type item c htype hkind hvalue hc =>
      refine .operand ?_ ((hkeeps.named_iff outermost type _).mpr hkind) ?_
        ((hkeeps.condition_iff ..).mpr hc)
      · rw [hkeeps.get?_type, htype, Option.map_some]
      · rw [hkeeps.get?_value, hvalue, Option.map_some]
    | operatorRow hkind _ _ ihf ihg =>
      rw [(hkeeps.row_iff ..).mpr
        ⟨_, _, _, _, rfl, rfl, rfl, rfl, ((hkeeps.text_iff ..).mpr rfl).symm⟩]
      exact .operatorRow ((hkeeps.named_iff ..).mpr hkind) ihf ihg
    | operandRow hkind hc =>
      rw [(hkeeps.row_iff ..).mpr ⟨_, _, _, _, rfl, rfl, rfl, rfl, rfl⟩]
      exact .operandRow ((hkeeps.named_iff ..).mpr hkind) ((hkeeps.condition_iff ..).mpr hc)

end Formula

/-! ## Sorted documents -/

namespace Json

theorem sortedItems_eq_map (items : List Json) : sortedItems items = items.map sorted := by
  induction items with
  | nil => rfl
  | cons item items ih => rw [sortedItems, ih, List.map_cons]

theorem sorted_eq_array_iff {doc : Json} {items : List Json} :
    doc.sorted = .array items ↔ ∃ row, doc = .array row ∧ row.map sorted = items := by
  cases doc <;> simp [sorted, sortedItems_eq_map]

theorem sorted_eq_string_iff {doc : Json} {text : String} :
    doc.sorted = .string text ↔ doc = .string text := by
  cases doc <;> simp [sorted]

end Json

theorem Value.ofDocument_sorted_eq_ok_iff {doc : Json} {v : Value} :
    ofDocument doc.sorted = .ok v ↔ ofDocument doc = .ok v := by
  cases doc <;> simp [Json.sorted, ofDocument]

theorem NodeKind.named_sorted_iff {outermost : Bool} {doc : Json} {kind : NodeKind} :
    Named outermost doc.sorted kind ↔ Named outermost doc kind := by
  cases doc with
  | array items => constructor <;> intro h <;> rw [Json.sorted] at * <;> cases h
  | object members => constructor <;> intro h <;> rw [Json.sorted] at * <;> cases h
  | _ => rw [Json.sorted]

theorem Condition.written_sorted_iff {doc : Json} {c : Condition} :
    Written doc.sorted c ↔ Written doc c := by
  constructor
  · intro h
    generalize hdoc : doc.sorted = sorted at h
    cases h with
    | members hfield hcomparator hvalue hliteral =>
      subst hdoc
      rw [Json.get?_sorted] at hfield hcomparator hvalue
      obtain ⟨field, hfield, htext⟩ := Option.map_eq_some_iff.mp hfield
      obtain rfl := Json.sorted_eq_string_iff.mp htext
      obtain ⟨comparator, hcomparator, htext⟩ := Option.map_eq_some_iff.mp hcomparator
      obtain rfl := Json.sorted_eq_string_iff.mp htext
      obtain ⟨value, hitem, rfl⟩ := Option.map_eq_some_iff.mp hvalue
      exact .members hfield hcomparator hitem (Value.ofDocument_sorted_eq_ok_iff.mp hliteral)
    | items hliteral =>
      obtain ⟨row, rfl, hrow⟩ := Json.sorted_eq_array_iff.mp hdoc
      simp only [List.map_eq_cons_iff, List.map_eq_nil_iff, Json.sorted_eq_string_iff] at hrow
      obtain ⟨_, _, rfl, rfl, _, _, rfl, rfl, value, _, rfl, rfl, rfl⟩ := hrow
      exact .items (Value.ofDocument_sorted_eq_ok_iff.mp hliteral)
  · intro h
    cases h with
    | members hfield hcomparator hvalue hliteral =>
      refine .members ?_ ?_ ?_ (Value.ofDocument_sorted_eq_ok_iff.mpr hliteral)
      · rw [Json.get?_sorted, hfield, Option.map_some, Json.sorted]
      · rw [Json.get?_sorted, hcomparator, Option.map_some, Json.sorted]
      · rw [Json.get?_sorted, hvalue, Option.map_some]
    | items hliteral =>
      simp only [Json.sorted, Json.sortedItems]
      exact .items (Value.ofDocument_sorted_eq_ok_iff.mpr hliteral)

namespace Formula

theorem keepsNodes_sorted : KeepsNodes Json.sorted Json.sorted Json.sorted where
  get?_type := Json.get?_sorted "type"
  get?_left := Json.get?_sorted "left"
  get?_right := Json.get?_sorted "right"
  get?_value := Json.get?_sorted "value"
  row_iff doc a b c d := by
    simp only [Json.sorted_eq_array_iff, List.map_eq_cons_iff, List.map_eq_nil_iff]
    constructor
    · rintro ⟨_, rfl, type, _, rfl, rfl, left, _, rfl, rfl, right, _, rfl, rfl, item, _, rfl, rfl,
        rfl⟩
      exact ⟨type, left, right, item, rfl, rfl, rfl, rfl, rfl⟩
    · rintro ⟨type, left, right, item, rfl, rfl, rfl, rfl, rfl⟩
      exact ⟨_, rfl, type, _, rfl, rfl, left, _, rfl, rfl, right, _, rfl, rfl, item, _, rfl, rfl,
        rfl⟩
  named_iff _ _ _ := NodeKind.named_sorted_iff
  text_iff _ _ := Json.sorted_eq_string_iff
  condition_iff _ _ := Condition.written_sorted_iff

/-- **Sorting a document does not change its formula**, if no object repeats a key. -/
theorem ofDocument_sorted_iff {doc : Json} {f : Formula} (hkeys : doc.hasDistinctKeys) :
    ofDocument doc.sorted = .ok f ↔ ofDocument doc = .ok f := by
  unfold ofDocument
  rw [ofNode_eq_ok_iff doc.hasDistinctKeys_sorted, ofNode_eq_ok_iff hkeys,
    written_rewritten_iff keepsNodes_sorted]

end Formula

/-! ## The members that are looked at -/

/-- A condition without the members of other keys than its own. -/
def Condition.essence : Json → Json
  | .object members =>
    .object (members.filter fun m => m.1 ∈ ["condition", "operator", "value"])
  | doc => doc

namespace Formula

mutual

/-- **A node without the members of other keys than its own**, at every depth. -/
def essence : Json → Json
  | .object members => .object (essenceOfMembers members)
  | .array items => .array (essenceOfItems items)
  | doc => doc

/-- The row of a node, its sides and its value without such members. -/
def essenceOfItems : List Json → List Json
  | [kind, left, right, value] => [kind, essence left, essence right, Condition.essence value]
  | items => items

/-- The members of a node without those of other keys than its own. -/
def essenceOfMembers : List (String × Json) → List (String × Json)
  | [] => []
  | (key, doc) :: members =>
    if key = "type" then (key, doc) :: essenceOfMembers members
    else if key = "left" ∨ key = "right" then (key, essence doc) :: essenceOfMembers members
    else if key = "value" then (key, Condition.essence doc) :: essenceOfMembers members
    else essenceOfMembers members

end

end Formula

theorem Condition.get?_essence {key : String} (hkey : key ∈ ["condition", "operator", "value"])
    (doc : Json) : (essence doc).get? key = doc.get? key := by
  cases doc with
  | object members =>
    exact Json.lookupLast_filter (fun k => k ∈ ["condition", "operator", "value"])
      (decide_eq_true hkey) members
  | _ => rfl

theorem Condition.written_essence_iff {doc : Json} {c : Condition} :
    Written (essence doc) c ↔ Written doc c := by
  constructor
  · intro h
    generalize hdoc : essence doc = core at h
    cases h with
    | members hfield hcomparator hvalue hliteral =>
      subst hdoc
      rw [get?_essence (by simp)] at hfield hcomparator hvalue
      exact .members hfield hcomparator hvalue hliteral
    | items hliteral =>
      cases doc with
      | array row =>
        cases hdoc
        exact .items hliteral
      | _ => cases hdoc
  · intro h
    cases h with
    | members hfield hcomparator hvalue hliteral =>
      refine .members ?_ ?_ ?_ hliteral <;> rwa [get?_essence (by simp)]
    | items hliteral => exact .items hliteral

namespace Formula

theorem lookupLast_essenceOfMembers_of_ne {key k : String} (hne : k ≠ key) (doc : Json)
    (members : List (String × Json)) :
    Json.lookupLast key (essenceOfMembers ((k, doc) :: members)) =
      Json.lookupLast key (essenceOfMembers members) := by
  have hskip (value : Json) (rest : List (String × Json)) :
      Json.lookupLast key ((k, value) :: rest) = Json.lookupLast key rest := by
    rw [Json.lookupLast, if_neg hne]
    cases Json.lookupLast key rest <;> rfl
  rw [essenceOfMembers]
  split
  · exact hskip ..
  · split
    · exact hskip ..
    · split
      · exact hskip ..
      · rfl

/-- What stands under a key of nodes is rewritten in the way of the key. -/
theorem get?_essence {key : String} {rewrite : Json → Json}
    (hkey : ∀ doc members, essenceOfMembers ((key, doc) :: members) =
      (key, rewrite doc) :: essenceOfMembers members) (doc : Json) :
    (essence doc).get? key = (doc.get? key).map rewrite := by
  cases doc with
  | object members =>
    rw [essence]
    show Json.lookupLast key (essenceOfMembers members) = (Json.lookupLast key members).map rewrite
    induction members with
    | nil => rfl
    | cons first members ih =>
      obtain ⟨k, value⟩ := first
      by_cases hk : k = key
      · subst hk
        rw [hkey, Json.lookupLast, Json.lookupLast, ih, if_pos rfl, if_pos rfl]
        cases Json.lookupLast k members <;> rfl
      · rw [lookupLast_essenceOfMembers_of_ne hk, ih, Json.lookupLast, if_neg hk]
        cases Json.lookupLast key members <;> rfl
  | array items => rw [essence]; rfl
  | _ => simp [essence, Json.get?]

theorem keepsNodes_essence : KeepsNodes id essence Condition.essence where
  get?_type := get?_essence fun _ _ => by simp [essenceOfMembers]
  get?_left := get?_essence fun _ _ => by simp [essenceOfMembers]
  get?_right := get?_essence fun _ _ => by simp [essenceOfMembers]
  get?_value := get?_essence fun _ _ => by simp [essenceOfMembers]
  row_iff doc a b c d := by
    cases doc with
    | array items =>
      rw [essence, Json.array.injEq]
      unfold essenceOfItems
      split
      · simp [eq_comm]
      · rename_i hrow
        constructor
        · rintro rfl
          exact (hrow a b c d rfl).elim
        · rintro ⟨type, left, right, item, hitems, -⟩
          cases hitems
          exact (hrow type left right item rfl).elim
    | _ => simp [essence]
  named_iff _ _ _ := Iff.rfl
  text_iff doc text := by cases doc <;> simp [Condition.essence]
  condition_iff _ _ := Condition.written_essence_iff

/-- **Documents of one sorted essence are decoded alike**, if none of their objects repeats
a key. -/
theorem ofDocument_congr {doc doc' : Json} {f : Formula} (hkeys : doc.hasDistinctKeys)
    (hkeys' : doc'.hasDistinctKeys) (h : (essence doc).sorted = (essence doc').sorted) :
    ofDocument doc = .ok f ↔ ofDocument doc' = .ok f := by
  have hessence {doc : Json} : Written true (essence doc).sorted f ↔ Written true doc f :=
    (written_rewritten_iff keepsNodes_sorted).trans (written_rewritten_iff keepsNodes_essence)
  unfold ofDocument
  rw [ofNode_eq_ok_iff hkeys, ofNode_eq_ok_iff hkeys', ← hessence, h, hessence]

end Formula

end Rulebook
