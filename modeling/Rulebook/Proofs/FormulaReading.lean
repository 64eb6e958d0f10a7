import Rulebook.Formula.Reader
import Rulebook.Proofs.Combination
import Rulebook.Proofs.DocumentRoundTrip
import Rulebook.Proofs.FormulaText

/-!
# Formulas are read from the texts of their documents

The text of a formula's document can be read in two ways: as any document, or as a
formula straight away. The second reader goes through the members of the outermost
node as they stand in the text and looks at the kind as soon as it meets it. Both give
back what was written (`Json.read_text`, `Formula.ofText_text`), if the document is not
nested deeper than a reader goes.

No accepted rule comes near that bound: a rule has at most `depthLimit` levels, a
combination of rules one more, and the conditions at the bottom one object more
(`ofText_text_of_combine`).
-/

namespace Rulebook

namespace Formula

open Json

/-- The node of a formula is read as its normal form, with its members as they are
written. -/
theorem ofNode_toDocument (outermost : Bool) (f : Formula) :
    ofNode outermost f.toDocument = .ok f.normal := by
  induction f generalizing outermost with
  | condition c =>
    simp [toDocument, ofNode, NodeKind.ofMembers, NodeKind.ofDocument, NodeKind.ofName,
      operandOfMembers, c.ofDocument_toDocument, normal, bind, Except.bind]
  | join op left right ihleft ihright =>
    simp [toDocument, ofNode, NodeKind.ofMembers, NodeKind.ofDocument, NodeKind.ofName,
      operatorOfMembers, ihleft, ihright, Connective.ofDocument, Json.readText,
      OperatorParts.whole, normal, bind, Except.bind, pure, Except.pure]

/-! ## The outermost node -/

/-- The kind of the outermost node is taken if it is one of the two. -/
theorem readMember_type {name : String} {kind : NodeKind} (h : NodeKind.ofName name = .ok kind)
    (rest : List Char) :
    readMember [] "type" (':' :: (Json.string name).chars ++ rest)
      = .ok ([("type", .string name)], rest) := by
  have hkind : readKind ((Json.string name).chars ++ rest) = .ok (.string name, rest) := by
    unfold readKind
    rw [textAt_chars]
    show (orMismatch (NodeKind.ofName name) >>= _) = _
    rw [h]
    rfl
  show (readKind ((Json.string name).chars ++ rest) >>= _) = _
  rw [hkind]
  rfl

/-- Any other member is read as a document. -/
theorem readMember_of_ne {key : String} (hkey : key ≠ "type") {doc : Json}
    (hwritable : doc.isWritable) (hdepth : doc.nesting ≤ nestingLimit - 1)
    (read : List (String × Json)) {rest : List Char} (hrest : NumberEnd rest) :
    readMember read key (':' :: doc.chars ++ rest) = .ok ((key, doc) :: read, rest) := by
  unfold readMember
  rw [if_neg hkey]
  show (readValue true (nestingLimit - 1) (doc.chars ++ rest) >>= _) = _
  rw [readValue_chars true hwritable hdepth rest hrest]
  rfl

/-- The members behind the kind are gathered one by one, the last one first. -/
theorem gathers_readMember {members : List (String × Json)}
    (hkeys : ∀ member ∈ members, member.1 ≠ "type") (hwritable : membersWritable members)
    (hdepth : membersNesting members ≤ nestingLimit - 1) (read : List (String × Json)) :
    Gathers readMember read members (members.reverse ++ read) := by
  induction members generalizing read with
  | nil => exact .none read
  | cons first members ih =>
    obtain ⟨key, doc⟩ := first
    rw [membersWritable, Bool.and_eq_true] at hwritable
    rw [membersNesting, Nat.max_le] at hdepth
    rw [List.reverse_cons, List.append_assoc]
    refine .member ((key, doc) :: read) ?_ (ih (fun m hm => hkeys m (List.mem_cons_of_mem _ hm))
      hwritable.2 hdepth.2 ((key, doc) :: read))
    intro rest hrest
    exact readMember_of_ne (hkeys _ List.mem_cons_self) hwritable.1 hdepth.1 read hrest

/-- **A node is read as it was written**, if its kind stands first and is one of the
two. -/
theorem readNode_object {name : String} {kind : NodeKind} (h : NodeKind.ofName name = .ok kind)
    {members : List (String × Json)} (hkeys : ∀ member ∈ members, member.1 ≠ "type")
    (hwritable : membersWritable members) (hdepth : membersNesting members ≤ nestingLimit - 1)
    (rest : List Char) :
    readNode ((Json.object (("type", .string name) :: members)).chars ++ rest)
      = .ok (.object (("type", .string name) :: members), rest) := by
  have hgathers : Gathers readMember [] (("type", .string name) :: members)
      (members.reverse ++ [("type", .string name)]) :=
    .member _ (fun rest _ => readMember_type h rest)
      (gathers_readMember hkeys hwritable hdepth [("type", .string name)])
  rw [chars, List.cons_append, List.cons_append, List.append_assoc]
  show (gatherMembers true readMember []
    (separated (memberChars (("type", Json.string name) :: members)) ++ '\x7d' :: rest) >>= _) = _
  rw [gatherMembers_separated hgathers]
  show Except.ok (Json.object (members.reverse ++ [("type", Json.string name)]).reverse, rest) = _
  rw [List.reverse_append, List.reverse_reverse]
  rfl

theorem readNode_toDocument (f : Formula) (h : f.depth < nestingLimit) (rest : List Char) :
    readNode (f.toDocument.chars ++ rest) = .ok (f.toDocument, rest) := by
  have hwritable := f.isWritable_toDocument
  have hnesting : f.toDocument.nesting ≤ nestingLimit := by
    rw [nesting_toDocument]
    exact h
  cases f with
  | condition c =>
    rw [toDocument, Json.isWritable, membersWritable, Bool.and_eq_true] at hwritable
    rw [toDocument, Json.nesting, membersNesting] at hnesting
    have hkind : NodeKind.ofName "operand" = .ok .operand := rfl
    exact readNode_object hkind (by simp) hwritable.2 (by omega) rest
  | join op left right =>
    rw [toDocument, Json.isWritable, membersWritable, Bool.and_eq_true] at hwritable
    rw [toDocument, Json.nesting, membersNesting] at hnesting
    have hkind : NodeKind.ofName "operator" = .ok .operator := rfl
    exact readNode_object hkind (by simp) hwritable.2 (by omega) rest

/-- **A formula is read from the text of its document**, in its normal form. -/
theorem ofText_text {f : Formula} (h : f.depth < nestingLimit) :
    ofText f.toDocument.text = .ok f.normal := by
  have hread := readNode_toDocument f h []
  rw [List.append_nil] at hread
  unfold ofText Json.text
  rw [String.toList_ofList, hread]
  show (orMismatch (ofDocument f.toDocument) >>= _) = _
  rw [ofDocument, ofNode_toDocument]
  rfl

/-- **What is accepted can be kept as a text.** For every row of rule texts that are
combined to a formula, a single one included, the text of its document is nested no
deeper than 52 objects, and it is read back: as a document it is the same document, and
as a formula the same formula. -/
theorem ofText_text_of_combine {rules : List String} {f : Formula}
    (h : combine rules = .ok (some f)) :
    Json.read f.toDocument.text = .ok f.toDocument ∧ f.toDocument.nesting ≤ 52 ∧
      ofText f.toDocument.text = .ok f ∧ f.same f = true := by
  have hdepth := depth_le_of_combine h
  have hlimit : f.depth ≤ 51 := hdepth
  have hnormal := normal_of_combine h
  refine ⟨?_, ?_, ?_, ?_⟩
  · refine read_text f.isWritable_toDocument ?_
    rw [nesting_toDocument]
    exact Nat.le_trans (Nat.succ_le_succ hlimit) (by decide)
  · rw [nesting_toDocument]
    exact Nat.succ_le_succ hlimit
  · rw [ofText_text (Nat.lt_of_le_of_lt hlimit (by decide)), hnormal]
  · have hsame := (same_normal_iff f).mpr (isStorable_of_combine h)
    rwa [hnormal] at hsame

/-- Two rules with a number beyond `2^53`, and with a quote, a backslash, a tab, a control
character and a character beyond the first plane, are read back from one text. -/
theorem ofText_text_combined :
    ∃ f, combine ["a >= 9007199254740993", "", "b = '\"\\\t\x01😀'"] = .ok (some f) ∧
      f.toDocument.nesting ≤ 52 ∧ ofText f.toDocument.text = .ok f := by
  have hcombine : combine ["a >= 9007199254740993", "", "b = '\"\\\t\x01😀'"]
      = .ok (some (.join .and
          (.condition ⟨"a", .ge, .number (.ofNat 9007199254740993)⟩)
          (.condition ⟨"b", .eq, .text "\"\\\t\x01😀"⟩))) := by
    decide +kernel
  obtain ⟨-, hnesting, hread, -⟩ := ofText_text_of_combine hcombine
  exact ⟨_, hcombine, hnesting, hread⟩

end Formula

end Rulebook
