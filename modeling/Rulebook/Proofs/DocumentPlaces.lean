import Rulebook.Proofs.DocumentEvaluation
import Rulebook.Proofs.Json.Keys
import Rulebook.Proofs.Monotonicity

/-!
# Faults in documents stay where they are

A document that is evaluated may be faulty anywhere: a node may be of no type that is known,
an operand may lack a part of its condition, and where a node is expected a text or a row may
stand. What is faulty does not hold, and nothing else comes of it. To say so, a part of a
document is named by its place, the sides that lead to it from the root through operators
(`Json.at?`), and put in the place of another (`Json.replaceAt`).

Of the part at a place the document takes nothing but the verdict: with that verdict as its
one argument the verdict on the document is a function (`verdictAround`), and the function is
monotone, since no connective turns a verdict round. `documentHolds_replaceAt` is what
follows. A part can be replaced by any other with the same verdict, a part that holds does not
make the document fail, and every faulty part does what a condition does that does not hold.

Three things that look alike are told apart by this: `null` at a place holds, a fault there
does not hold, and no key at all is like a fault and not like `null`.
-/

namespace Rulebook

variable {record : Record} {doc x : Json} {place : List Side} {side : Side}

/-! ## Members of a document -/

/-- The key under which a side stands. -/
def Side.key : Side → String
  | .left => "left"
  | .right => "right"

theorem Side.key_ne_type (side : Side) : side.key ≠ "type" := by
  cases side <;> decide

namespace Json

/-- An object with what stands under a key changed; nothing else has keys. -/
def changeMember (key : String) (change : Json → Json) : Json → Json
  | .object members => .object (members.map fun m => if m.1 = key then (m.1, change m.2) else m)
  | doc => doc

/-- An object without a key. -/
def eraseMember (key : String) : Json → Json
  | .object members => .object (members.filter fun m => m.1 ≠ key)
  | doc => doc

theorem get?_changeMember_self (key : String) (change : Json → Json) (doc : Json) :
    (doc.changeMember key change).get? key = (doc.get? key).map change := by
  cases doc with
  | object members =>
    show lookupLast key (members.map _) = (lookupLast key members).map change
    induction members with
    | nil => rfl
    | cons first members ih =>
      rw [List.map_cons, lookupLast, lookupLast, ih]
      cases lookupLast key members with
      | some found => rfl
      | none => by_cases hkey : first.1 = key <;> simp [hkey]
  | _ => rfl

theorem get?_changeMember_of_ne {key other : String} (hne : other ≠ key) (change : Json → Json)
    (doc : Json) : (doc.changeMember key change).get? other = doc.get? other := by
  cases doc with
  | object members =>
    show lookupLast other (members.map _) = lookupLast other members
    induction members with
    | nil => rfl
    | cons first members ih =>
      rw [List.map_cons, lookupLast, lookupLast, ih]
      by_cases hkey : first.1 = key <;> simp [hkey, hne.symm]
  | _ => rfl

theorem changeMember_id (key : String) (doc : Json) : doc.changeMember key id = doc := by
  cases doc with
  | object members => simp [changeMember]
  | _ => rfl

theorem get?_eraseMember_self (key : String) (doc : Json) :
    (doc.eraseMember key).get? key = none := by
  cases doc with
  | object members => exact lookupLast_eq_none (by simp)
  | _ => rfl

theorem get?_eraseMember_of_ne {key other : String} (hne : other ≠ key) (doc : Json) :
    (doc.eraseMember key).get? other = doc.get? other := by
  cases doc with
  | object members =>
    exact lookupLast_filter (fun k => k ≠ key) (decide_eq_true hne) members
  | _ => rfl

/-! ## Places in a document -/

/-- **What stands at a place** of a document. A step leads from an operator to one of its
sides; from anything else there are no steps. -/
def at? : Json → List Side → Option Json
  | doc, [] => some doc
  | doc, side :: place =>
    if typeOfNode? doc = some "operator" then
      (doc.get? side.key).bind fun inner => inner.at? place
    else none

/-- A document with what stands at a place changed. -/
def changeAt (change : Json → Json) : Json → List Side → Json
  | doc, [] => change doc
  | doc, side :: place => doc.changeMember side.key fun inner => inner.changeAt change place

/-- **A document with another document at a place.** -/
def replaceAt (doc : Json) (place : List Side) (y : Json) : Json :=
  doc.changeAt (fun _ => y) place

/-- **A document without a side of the node at a place**: the key is gone, not only what
stands under it. -/
def eraseAt (doc : Json) (place : List Side) (side : Side) : Json :=
  doc.changeAt (eraseMember side.key) place

theorem exists_get?_of_at?_cons (h : doc.at? (side :: place) = some x) :
    typeOfNode? doc = some "operator" ∧
      ∃ inner, doc.get? side.key = some inner ∧ inner.at? place = some x := by
  rw [at?] at h
  split at h
  · rename_i htype
    exact ⟨htype, Option.bind_eq_some_iff.mp h⟩
  · cases h

/-- **What is changed stands in its place.** -/
theorem at?_changeAt (h : doc.at? place = some x) (change : Json → Json) :
    (doc.changeAt change place).at? place = some (change x) := by
  induction place generalizing doc with
  | nil =>
    cases h
    rfl
  | cons side place ih =>
    obtain ⟨htype, inner, hinner, hplace⟩ := exists_get?_of_at?_cons h
    have htype' (inner : Json → Json) :
        typeOfNode? (doc.changeMember side.key inner) = some "operator" := by
      rw [typeOfNode?, get?_changeMember_of_ne side.key_ne_type.symm]
      exact htype
    rw [changeAt, at?, if_pos (htype' _), get?_changeMember_self, hinner, Option.map_some,
      Option.bind_some, ih hplace]

theorem at?_append (doc : Json) (place more : List Side) :
    doc.at? (place ++ more) = (doc.at? place).bind fun inner => inner.at? more := by
  induction place generalizing doc with
  | nil => rfl
  | cons side place ih =>
    rw [List.cons_append, at?, at?]
    split
    · simp only [ih, Option.bind_assoc]
    · rfl

theorem changeAt_id (doc : Json) (place : List Side) : doc.changeAt id place = doc := by
  induction place generalizing doc with
  | nil => rfl
  | cons side place ih =>
    rw [changeAt]
    simp only [ih]
    exact changeMember_id side.key doc

/-- To change what is further down is to change a part of what is at a place. -/
theorem changeAt_append (change : Json → Json) (doc : Json) (place more : List Side) :
    doc.changeAt change (place ++ more) =
      doc.changeAt (fun inner => inner.changeAt change more) place := by
  induction place generalizing doc with
  | nil => rfl
  | cons side place ih =>
    rw [List.cons_append, changeAt, changeAt]
    simp only [ih]

end Json

/-! ## The verdict around a place -/

/-- **The verdict on an operator if one of its sides had a given verdict.** -/
def verdictBeside (record : Record) (doc : Json) (side : Side) (verdict : Bool) : Bool :=
  (connectiveOfNode? doc).elim false fun op =>
    match side with
    | .left => op.verdict verdict (sideHolds record (doc.get? "right"))
    | .right => op.verdict (sideHolds record (doc.get? "left")) verdict

/-- **The verdict on a document if what stands at a place had a given verdict.** -/
def verdictAround (record : Record) : Json → List Side → Bool → Bool
  | _, [], verdict => verdict
  | doc, side :: place, verdict =>
    verdictBeside record doc side
      ((doc.get? side.key).elim false fun inner => verdictAround record inner place verdict)

theorem verdictBeside_mono {verdict verdict' : Bool} (h : verdict = true → verdict' = true) :
    verdictBeside record doc side verdict = true →
      verdictBeside record doc side verdict' = true := by
  unfold verdictBeside
  cases connectiveOfNode? doc with
  | none => exact id
  | some op =>
    cases side with
    | left => exact Connective.verdict_mono h id
    | right => exact Connective.verdict_mono id h

/-- **No place turns its verdict round.** -/
theorem verdictAround_mono {verdict verdict' : Bool} (h : verdict = true → verdict' = true) :
    verdictAround record doc place verdict = true →
      verdictAround record doc place verdict' = true := by
  induction place generalizing doc with
  | nil => exact h
  | cons side place ih =>
    refine verdictBeside_mono ?_
    cases doc.get? side.key with
    | none => exact id
    | some inner => exact ih

/-- Of an operator that differs from another on one side only, the verdict is that of the
other with this side. -/
theorem documentHolds_of_get?_eq {doc' : Json} (htype : typeOfNode? doc = some "operator")
    (side : Side) (hget : ∀ key, key ≠ side.key → doc'.get? key = doc.get? key) :
    documentHolds record doc' =
      verdictBeside record doc side (sideHolds record (doc'.get? side.key)) := by
  have htype' : typeOfNode? doc' = some "operator" := by
    rw [typeOfNode?, hget "type" side.key_ne_type.symm]
    exact htype
  have hop : connectiveOfNode? doc' = connectiveOfNode? doc := by
    rw [connectiveOfNode?, hget "value" (by cases side <;> decide)]
    rfl
  rw [documentHolds_operator htype', hop]
  cases side with
  | left => rw [hget "right" (by decide)]; rfl
  | right => rw [hget "left" (by decide)]; rfl

theorem documentHolds_eraseMember (htype : typeOfNode? doc = some "operator") (side : Side) :
    documentHolds record (doc.eraseMember side.key) = verdictBeside record doc side false := by
  rw [documentHolds_of_get?_eq htype side fun key hkey => Json.get?_eraseMember_of_ne hkey doc,
    Json.get?_eraseMember_self, sideHolds_none]

/-- **A document takes from a place nothing but the verdict there.** -/
theorem documentHolds_changeAt (hplace : doc.at? place = some x) (change : Json → Json) :
    documentHolds record (doc.changeAt change place) =
      verdictAround record doc place (documentHolds record (change x)) := by
  induction place generalizing doc with
  | nil =>
    cases hplace
    rfl
  | cons side place ih =>
    obtain ⟨htype, inner, hinner, hplace⟩ := Json.exists_get?_of_at?_cons hplace
    rw [Json.changeAt, documentHolds_of_get?_eq htype side
      fun key hkey => Json.get?_changeMember_of_ne hkey _ doc, Json.get?_changeMember_self, hinner,
      Option.map_some, sideHolds_some, ih hplace, verdictAround, hinner]
    rfl

theorem documentHolds_eq_verdictAround (record : Record) (hplace : doc.at? place = some x) :
    documentHolds record doc = verdictAround record doc place (documentHolds record x) := by
  have h : documentHolds record (doc.changeAt id place) = _ := documentHolds_changeAt hplace id
  rwa [Json.changeAt_id] at h

/-! ## Faulty documents -/

theorem typeOfNode?_eq_some_iff {name : String} :
    typeOfNode? doc = some name ↔ doc.get? "type" = some (.string name) := by
  unfold typeOfNode?
  cases doc.get? "type" with
  | none => simp
  | some type => cases type <;> simp [Json.asText?]

/-- **That a document is faulty as it stands**, whatever its sides are. -/
inductive IsFaulty : Json → Prop where
  /-- Something other than `null` without one of the two types: a single value, a row, or an
  object whose type is missing, unknown or not a text. -/
  | node {doc : Json} (hnull : doc ≠ .null)
      (hoperator : doc.get? "type" ≠ some (.string "operator"))
      (hoperand : doc.get? "type" ≠ some (.string "operand")) : IsFaulty doc
  /-- An operator whose connective is missing, unknown or not a text. -/
  | operator {doc : Json} (htype : doc.get? "type" = some (.string "operator"))
      (hand : doc.get? "value" ≠ some (.string "AND"))
      (hor : doc.get? "value" ≠ some (.string "OR")) : IsFaulty doc
  /-- An operand of whose condition a part is missing or ill-typed, or the comparator
  unknown. -/
  | operand {doc : Json} (htype : doc.get? "type" = some (.string "operand"))
      (hparts : ∀ value field comparator literal v, doc.get? "value" = some value →
        value.get? "condition" = some (.string field) →
        value.get? "operator" = some (.string comparator) →
        value.get? "value" = some literal → Value.ofDocument literal = .ok v →
        (Comparator.ofText comparator).isKnown = false) : IsFaulty doc

/-- The parts of a condition that is found are where they belong. -/
theorem exists_parts_of_conditionOfNode? {c : Condition} (h : conditionOfNode? doc = some c) :
    ∃ value comparator literal, doc.get? "value" = some value ∧
      value.get? "condition" = some (.string c.field) ∧
      value.get? "operator" = some (.string comparator) ∧ c.comparator = .ofText comparator ∧
      value.get? "value" = some literal ∧ Value.ofDocument literal = .ok c.literal := by
  have htext {part : Json} {s : String} (h : part.asText? = some s) : part = .string s := by
    cases part <;> simp_all [Json.asText?]
  unfold conditionOfNode? at h
  simp only [Option.bind_eq_bind, Option.bind_eq_some_iff, Option.pure_def,
    Option.some.injEq] at h
  obtain ⟨value, hvalue, part, hpart, field, hfield, part', hpart', comparator, hcomparator,
    literal, hliteral, v, hv, rfl⟩ := h
  obtain rfl := htext hfield
  obtain rfl := htext hcomparator
  refine ⟨value, comparator, literal, hvalue, hpart, hpart', rfl, hliteral, ?_⟩
  cases hread : Value.ofDocument literal with
  | error fault => rw [hread] at hv; cases hv
  | ok v' =>
    rw [hread] at hv
    cases hv
    rfl

/-- **What is faulty does not hold.** -/
theorem documentHolds_of_isFaulty (h : IsFaulty doc) : documentHolds record doc = false := by
  cases h with
  | node hnull hoperator hoperand =>
    exact documentHolds_of_type hnull (fun h => hoperator (typeOfNode?_eq_some_iff.mp h))
      (fun h => hoperand (typeOfNode?_eq_some_iff.mp h))
  | operator htype hand hor =>
    rw [documentHolds_operator (typeOfNode?_eq_some_iff.mpr htype), connectiveOfNode?]
    cases hvalue : doc.get? "value" with
    | none => rfl
    | some value =>
      cases value with
      | string name =>
        have hand : name ≠ "AND" := fun h => hand (by rw [hvalue, h])
        have hor : name ≠ "OR" := fun h => hor (by rw [hvalue, h])
        have hother : Connective.ofText name = .other name := by
          rw [Connective.ofText, if_neg hand, if_neg hor]
        show (Connective.ofText name).verdict _ _ = false
        rw [hother]
        rfl
      | _ => rfl
  | operand htype hparts =>
    rw [documentHolds_operand (typeOfNode?_eq_some_iff.mpr htype)]
    cases hcondition : conditionOfNode? doc with
    | none => rfl
    | some c =>
      obtain ⟨value, comparator, literal, hvalue, hfield, hcomparator, hc, hliteral, hread⟩ :=
        exists_parts_of_conditionOfNode? hcondition
      have hunknown := hparts _ _ _ _ _ hvalue hfield hcomparator hliteral hread
      show c.comparator.holds _ _ = false
      rw [hc]
      cases hof : Comparator.ofText comparator with
      | other name => rfl
      | _ => rw [hof] at hunknown; cases hunknown

theorem documentHolds_null : documentHolds record .null = true := by
  rw [documentHolds]

/-! ## A row of conjunctions -/

namespace Json

/-- A node that joins a side with `null` by `AND`. -/
def besideNull (side : Side) (x : Json) : Json :=
  match side with
  | .left => .object
      [("type", .string "operator"), ("left", x), ("right", .null), ("value", .string "AND")]
  | .right => .object
      [("type", .string "operator"), ("left", .null), ("right", x), ("value", .string "AND")]

/-- **A document that says what stands at a place says**: all else in it is `AND` and
`null`. -/
def aloneAt : List Side → Json → Json
  | [], x => x
  | side :: place, x => besideNull side (aloneAt place x)

theorem typeOfNode?_besideNull (side : Side) (x : Json) :
    typeOfNode? (besideNull side x) = some "operator" := by
  cases side <;> rfl

theorem get?_besideNull (side : Side) (x : Json) :
    (besideNull side x).get? side.key = some x := by
  cases side <;> rfl

theorem aloneAt_append (place : List Side) (side : Side) (x : Json) :
    aloneAt (place ++ [side]) x = aloneAt place (besideNull side x) := by
  induction place with
  | nil => rfl
  | cons first place ih => rw [List.cons_append, aloneAt, aloneAt, ih]

theorem at?_aloneAt (place : List Side) (x : Json) : (aloneAt place x).at? place = some x := by
  induction place with
  | nil => rfl
  | cons side place ih =>
    rw [aloneAt, at?, if_pos (typeOfNode?_besideNull side _), get?_besideNull, Option.bind_some, ih]

end Json

theorem verdictBeside_besideNull (verdict : Bool) :
    verdictBeside record (Json.besideNull side x) side verdict = verdict := by
  cases side with
  | left =>
    show (verdict && sideHolds record (some .null)) = verdict
    rw [sideHolds_some, documentHolds_null, Bool.and_true]
  | right =>
    show (sideHolds record (some .null) && verdict) = verdict
    rw [sideHolds_some, documentHolds_null, Bool.true_and]

theorem verdictAround_aloneAt (verdict : Bool) :
    verdictAround record (Json.aloneAt place x) place verdict = verdict := by
  induction place with
  | nil => rfl
  | cons side place ih =>
    rw [Json.aloneAt, verdictAround, verdictBeside_besideNull, Json.get?_besideNull]
    exact ih

/-! ## Replacing a part -/

/-- **A fault fails its own place only.** A part of a document can be replaced by any other
with the same verdict, and one that does not hold by one that does, without the document
failing for it. So every faulty part does what any part does that does not hold, `null`
does what any part does that holds, and a side that is erased is like one that does not
hold – unlike `null`, as some document tells at every place. -/
theorem documentHolds_replaceAt (hplace : doc.at? place = some x) (record : Record) :
    (∀ y, (doc.replaceAt place y).at? place = some y) ∧
    (∀ y, documentHolds record y = documentHolds record x →
      documentHolds record (doc.replaceAt place y) = documentHolds record doc) ∧
    (∀ y, documentHolds record x = false → documentHolds record y = true →
      documentHolds record doc = true → documentHolds record (doc.replaceAt place y) = true) ∧
    (∀ y z, IsFaulty y → documentHolds record z = false →
      documentHolds record (doc.replaceAt place y) = documentHolds record (doc.replaceAt place z)) ∧
    (∀ z, documentHolds record z = true →
      documentHolds record (doc.replaceAt place .null) =
        documentHolds record (doc.replaceAt place z)) ∧
    (∀ parent side z, place = parent ++ [side] → documentHolds record z = false →
      documentHolds record (doc.eraseAt parent side) =
        documentHolds record (doc.replaceAt place z)) ∧
    ∀ parent side, ∃ other : Json, other.at? (parent ++ [side]) = some .null ∧
      documentHolds record other = true ∧
      documentHolds record (other.eraseAt parent side) = false := by
  have hreplaced (y : Json) : documentHolds record (doc.replaceAt place y) =
      verdictAround record doc place (documentHolds record y) :=
    documentHolds_changeAt hplace fun _ => y
  have hdoc := documentHolds_eq_verdictAround record hplace
  refine ⟨fun y => Json.at?_changeAt hplace fun _ => y, fun y hy => ?_,
    fun y hx hy hholds => ?_, fun y z hy hz => ?_, fun z hz => ?_,
    fun parent side z hparent hz => ?_, fun parent side => ?_⟩
  · rw [hreplaced, hy, hdoc]
  · rw [hdoc] at hholds
    rw [hreplaced]
    exact verdictAround_mono (fun _ => hy) hholds
  · rw [hreplaced, hreplaced, documentHolds_of_isFaulty hy, hz]
  · rw [hreplaced, hreplaced, documentHolds_null, hz]
  · subst hparent
    -- both are changes of the node above, which is the same without the side and with one
    -- that does not hold
    rw [Json.at?_append] at hplace
    obtain ⟨node, hnode, hside⟩ := Option.bind_eq_some_iff.mp hplace
    obtain ⟨htype, inner, hinner, -⟩ := Json.exists_get?_of_at?_cons hside
    have hreplacedSide : documentHolds record (node.changeAt (fun _ => z) [side]) =
        verdictBeside record node side false := by
      rw [documentHolds_changeAt hside, verdictAround, hinner, hz]
      rfl
    rw [Json.eraseAt, Json.replaceAt, Json.changeAt_append, documentHolds_changeAt hnode,
      documentHolds_changeAt hnode, documentHolds_eraseMember htype, hreplacedSide]
  · refine ⟨Json.aloneAt (parent ++ [side]) .null, Json.at?_aloneAt _ _, ?_, ?_⟩
    · rw [documentHolds_eq_verdictAround record (Json.at?_aloneAt _ _), verdictAround_aloneAt,
        documentHolds_null]
    · rw [Json.aloneAt_append, Json.eraseAt, documentHolds_changeAt (Json.at?_aloneAt parent _),
        verdictAround_aloneAt, documentHolds_eraseMember (Json.typeOfNode?_besideNull side _),
        verdictBeside_besideNull]

/-- A document with a node of a type that is not known, two steps from the root. -/
def mysteryDocument : Json :=
  .object [("type", .string "operator"), ("value", .string "AND"),
    ("left", .object [("type", .string "operator"), ("value", .string "OR"),
      ("left", .object [("type", .string "operand"), ("value",
        .object [("condition", .string "a"), ("operator", .string "="), ("value", .string "x")])]),
      ("right", .object [("type", .string "mystery")])]),
    ("right", .null)]

/-- A text can stand for such a node, and nothing at all can. -/
theorem documentHolds_replaceAt_mystery :
    mysteryDocument.at? [.left, .right] = some (.object [("type", .string "mystery")]) ∧
      documentHolds .empty (mysteryDocument.replaceAt [.left, .right] (.string "a = x")) =
        documentHolds .empty mysteryDocument ∧
      documentHolds .empty (mysteryDocument.eraseAt [.left] .right) =
        documentHolds .empty (mysteryDocument.replaceAt [.left, .right] (.string "a = x")) := by
  have hplace : mysteryDocument.at? [.left, .right] =
      some (.object [("type", .string "mystery")]) := by rfl
  have hmystery : documentHolds .empty (.object [("type", .string "mystery")]) = false :=
    documentHolds_of_isFaulty (.node (by simp) (by simp [Json.get?, Json.lookupLast])
      (by simp [Json.get?, Json.lookupLast]))
  have htext : documentHolds .empty (.string "a = x") = false :=
    documentHolds_of_isFaulty (.node (by simp) (by simp [Json.get?]) (by simp [Json.get?]))
  obtain ⟨-, hsame, -, -, -, herased, -⟩ := documentHolds_replaceAt hplace .empty
  exact ⟨hplace, hsame _ (htext.trans hmystery.symm), herased [.left] .right _ rfl htext⟩

end Rulebook
