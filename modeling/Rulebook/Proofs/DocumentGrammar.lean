import Rulebook.Proofs.DocumentEssence
import Rulebook.Proofs.DocumentPlaces

/-!
# Which documents are decoded

A document is decoded if it writes a formula, and every other one is refused with one kind of
failure. `Formula.decode_eq_ok_iff` says so for `Formula.Written`, the forms that nodes and
conditions have, and it says where the decoder finds what it reads: what stands at a place of
the formula was written at the same place of the document, be the nodes on the way objects or
rows.

The forms have one exception that is easily missed. The type of a node is a name, but inside
another node it can be a number instead. `Formula.WrittenByName` are the forms without the
exception; what has one of them is decoded, but more than that is
(`Formula.not_forall_decode_iff_writtenByName`).
-/

namespace Rulebook

variable {doc : Json} {f g : Formula} {place : List Side} {outermost : Bool}

/-! ## Nodes of either form -/

namespace Json

/-- What stands on a side of a node, which is an object or a row. -/
def side? (doc : Json) (side : Side) : Option Json :=
  match doc with
  | .array [_, left, right, _] =>
    some (match side with
      | .left => left
      | .right => right)
  | doc => doc.get? side.key

/-- The value of a node, which is an object or a row. -/
def nodeValue? : Json → Option Json
  | .array [_, _, _, value] => some value
  | doc => doc.get? "value"

/-- **The node at a place** of a document, with objects and rows on the way. -/
def nodeAt? : Json → List Side → Option Json
  | doc, [] => some doc
  | doc, side :: place => (doc.side? side).bind fun inner => inner.nodeAt? place

theorem side?_of_get? {key : String} {x : Json} (h : doc.get? key = some x) (side : Side) :
    doc.side? side = doc.get? side.key := by
  cases doc with
  | array items => cases h
  | _ => rfl

theorem nodeValue?_of_get? {key : String} {x : Json} (h : doc.get? key = some x) :
    doc.nodeValue? = doc.get? "value" := by
  cases doc with
  | array items => cases h
  | _ => rfl

end Json

namespace Formula

/-- **What stands at a place of a formula was written there.** -/
theorem exists_nodeAt?_of_written (h : Written outermost doc f) (hg : f.at? place = some g) :
    ∃ node outer, doc.nodeAt? place = some node ∧ Written outer node g := by
  induction h generalizing place with
  | @operator outermost doc kind left right op f f' htype hkind hleft hright hop hf hf' ihf ihf' =>
    cases place with
    | nil =>
      cases hg
      exact ⟨doc, outermost, rfl, .operator htype hkind hleft hright hop hf hf'⟩
    | cons side place =>
      rw [Json.nodeAt?, Json.side?_of_get? htype]
      cases side with
      | left =>
        rw [show doc.get? Side.left.key = some left from hleft]
        exact ihf hg
      | right =>
        rw [show doc.get? Side.right.key = some right from hright]
        exact ihf' hg
  | @operand outermost doc kind value c htype hkind hvalue hc =>
    cases place with
    | nil =>
      cases hg
      exact ⟨doc, outermost, rfl, .operand htype hkind hvalue hc⟩
    | cons side place => cases hg
  | @operatorRow outermost kind left right op f f' hkind hf hf' ihf ihf' =>
    cases place with
    | nil =>
      cases hg
      exact ⟨_, outermost, rfl, .operatorRow hkind hf hf'⟩
    | cons side place =>
      cases side with
      | left => exact ihf hg
      | right => exact ihf' hg
  | @operandRow outermost kind left right value c hkind hc =>
    cases place with
    | nil =>
      cases hg
      exact ⟨_, outermost, rfl, .operandRow hkind hc⟩
    | cons side place => cases hg

/-- The value of a node that writes a condition writes it. -/
theorem exists_nodeValue?_of_written_condition {c : Condition}
    (h : Written outermost doc (.condition c)) :
    ∃ value, doc.nodeValue? = some value ∧ Condition.Written value c := by
  cases h with
  | operand htype hkind hvalue hc => exact ⟨_, (Json.nodeValue?_of_get? htype).trans hvalue, hc⟩
  | operandRow hkind hc => exact ⟨_, rfl, hc⟩

/-- The value of a node that writes two formulas joined is the text of the connective, known
or not. -/
theorem nodeValue?_of_written_join {op : Connective} {left right : Formula}
    (h : Written outermost doc (.join op left right)) :
    doc.nodeValue? = some (.string op.text) := by
  cases h with
  | operator htype hkind hleft hright hop hf hg =>
    rw [Json.nodeValue?_of_get? htype, hop, Connective.text_ofText]
  | operatorRow hkind hf hg => rw [Json.nodeValue?, Connective.text_ofText]

/-! ## The forms with types by name -/

/-- **That a document writes a formula with all types by name.** -/
inductive WrittenByName : Json → Formula → Prop where
  /-- An object with the name of an operator, two sides and a connective. -/
  | operator {doc left right : Json} {op : String} {f g : Formula}
      (htype : doc.get? "type" = some (.string "operator"))
      (hleft : doc.get? "left" = some left) (hright : doc.get? "right" = some right)
      (hop : doc.get? "value" = some (.string op))
      (hf : WrittenByName left f) (hg : WrittenByName right g) :
      WrittenByName doc (.join (.ofText op) f g)
  /-- An object with the name of an operand and a condition. -/
  | operand {doc value : Json} {c : Condition}
      (htype : doc.get? "type" = some (.string "operand"))
      (hvalue : doc.get? "value" = some value) (hc : Condition.Written value c) :
      WrittenByName doc (.condition c)
  /-- The name of an operator, two sides and a connective in a row. -/
  | operatorRow {left right : Json} {op : String} {f g : Formula}
      (hf : WrittenByName left f) (hg : WrittenByName right g) :
      WrittenByName (.array [.string "operator", left, right, .string op])
        (.join (.ofText op) f g)
  /-- The name of an operand, two sides of any form and a condition in a row. -/
  | operandRow {left right value : Json} {c : Condition} (hc : Condition.Written value c) :
      WrittenByName (.array [.string "operand", left, right, value]) (.condition c)

theorem WrittenByName.written (h : WrittenByName doc f) : Written outermost doc f := by
  induction h generalizing outermost with
  | operator htype hleft hright hop _ _ ihf ihg =>
    exact .operator htype .operator hleft hright hop ihf ihg
  | operand htype hvalue hc => exact .operand htype .operand hvalue hc
  | operatorRow _ _ ihf ihg => exact .operatorRow .operator ihf ihg
  | operandRow hc => exact .operandRow .operand hc

/-! ## What is decoded -/

theorem decode_eq_ok_iff_written : decode doc = .ok f ↔ Written true doc f := by
  have hsorted : ofDocument doc.sorted = .ok f ↔ Written true doc f :=
    (ofNode_eq_ok_iff doc.hasDistinctKeys_sorted).trans (written_rewritten_iff keepsNodes_sorted)
  rw [← hsorted, decode]
  cases ofDocument doc.sorted with
  | ok f' => simp
  | error mismatch => simp

/-- Every failure of the decoder is of one kind. -/
theorem decode_ok_or_invalidDocument (doc : Json) :
    (∃ f, decode doc = .ok f) ∨ ∃ reason, decode doc = .error (.invalidDocument reason) := by
  rw [decode]
  cases ofDocument doc.sorted with
  | ok f => exact .inl ⟨f, rfl⟩
  | error mismatch => exact .inr ⟨mismatch.message, rfl⟩

/-- **A document is decoded exactly if it writes a formula**, and then as this formula; any
other is refused as no document of a formula. Where all types are given by name it is the
formula that the names tell. Each condition and each connective of the formula stands at its
own place in the document. -/
theorem decode_eq_ok_iff (doc : Json) :
    (∀ f, decode doc = .ok f ↔ Written true doc f) ∧
      (∀ f, WrittenByName doc f → decode doc = .ok f) ∧
      (∀ f, decode doc = .ok f →
        (∀ place c, f.at? place = some (.condition c) → ∃ node value,
          doc.nodeAt? place = some node ∧ node.nodeValue? = some value ∧
            Condition.Written value c) ∧
        ∀ place op left right, f.at? place = some (.join op left right) → ∃ node,
          doc.nodeAt? place = some node ∧ node.nodeValue? = some (.string op.text)) ∧
      ((¬ ∃ f, Written true doc f) → ∃ reason, decode doc = .error (.invalidDocument reason)) := by
  refine ⟨fun f => decode_eq_ok_iff_written, fun f h => decode_eq_ok_iff_written.mpr h.written,
    fun f h => ⟨fun place c hplace => ?_, fun place op left right hplace => ?_⟩, fun hnone => ?_⟩
  · obtain ⟨node, outer, hnode, hwritten⟩ :=
      exists_nodeAt?_of_written (decode_eq_ok_iff_written.mp h) hplace
    obtain ⟨value, hvalue, hc⟩ := exists_nodeValue?_of_written_condition hwritten
    exact ⟨node, value, hnode, hvalue, hc⟩
  · obtain ⟨node, outer, hnode, hwritten⟩ :=
      exists_nodeAt?_of_written (decode_eq_ok_iff_written.mp h) hplace
    exact ⟨node, hnode, nodeValue?_of_written_join hwritten⟩
  · obtain ⟨f, hf⟩ | hrefused := decode_ok_or_invalidDocument doc
    · exact absurd ⟨f, decode_eq_ok_iff_written.mp hf⟩ hnone
    · exact hrefused

/-- The object of a condition `a = 'x'` with a given type. -/
def typedDocument (type : Json) : Json :=
  .object [("type", type), ("value",
    .object [("condition", .string "a"), ("operator", .string "="), ("value", .string "x")])]

/-- A document of two operands, the first one with a number for its type. -/
def numberedDocument : Json :=
  .object [("type", .string "operator"), ("left", typedDocument (.number (.integer 1))),
    ("right", typedDocument (.string "operand")), ("value", .string "AND")]

/-- **What is decoded need not give all types by name.** -/
theorem not_forall_decode_iff_writtenByName :
    ¬ ∀ (doc : Json) (f : Formula), decode doc = .ok f ↔ WrittenByName doc f := by
  intro hiff
  have hdecoded : decode numberedDocument = .ok (.join (.ofText "AND")
      (.condition ⟨"a", .ofText "=", .text "x"⟩) (.condition ⟨"a", .ofText "=", .text "x"⟩)) :=
    decode_eq_ok_iff_written.mpr (.operator rfl .operator rfl rfl rfl
      (.operand rfl (.one rfl) rfl (.members rfl rfl rfl rfl))
      (.operand rfl .operand rfl (.members rfl rfl rfl rfl)))
  obtain ⟨f, hf⟩ : ∃ f, WrittenByName numberedDocument f := ⟨_, (hiff _ _).mp hdecoded⟩
  -- the first operand has none of the forms by name
  cases hf with
  | operator htype hleft hright hop hf hg =>
    cases hleft
    cases hf with
    | operator htype => cases htype
    | operand htype => cases htype
  | operand htype => simp [numberedDocument, Json.get?, Json.lookupLast] at htype

end Formula

end Rulebook
