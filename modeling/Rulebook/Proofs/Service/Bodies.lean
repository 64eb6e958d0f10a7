import Rulebook.Proofs.Json.Characters
import Rulebook.Proofs.Text.Bytes
import Rulebook.Service.Body

/-!
# Bodies that are written are read

A body is read member by member, each in a form of its own, and nothing is made of
it before it has been read as a whole. What a client writes as one document is
therefore read by another reader than the document itself. For the bodies that
ask for a rule the two agree: from the text of the document the body is read as
what its members hold (`read_createBody`, `read_judgeBody`, `read_evaluateBody`).
-/

namespace Rulebook

open Json

/-! ## Records -/

/-- A single value is not nested. -/
theorem Value.nesting_of_ofDocument {doc : Json} {v : Value} (h : ofDocument doc = .ok v) :
    doc.nesting = 0 := by
  cases doc with
  | array items => cases h
  | object members => cases h
  | _ => rw [nesting]

namespace Record

/-- **A record is gathered field by field** as its document tells it. -/
theorem gathers_readField {members : List (String × Json)} {record result : Record}
    (h : ofMembers record members = .ok result) (hwritable : membersWritable members)
    (depth : Nat) : Gathers (readField depth) record members result := by
  induction members generalizing record with
  | nil =>
    cases h
    exact .none _
  | cons member members ih =>
    obtain ⟨field, doc⟩ := member
    rw [membersWritable, Bool.and_eq_true] at hwritable
    cases hvalue : Value.ofDocument doc with
    | error mismatch =>
      rw [ofMembers, hvalue] at h
      cases h
    | ok v =>
      rw [ofMembers, hvalue] at h
      refine .member (record.insert field v) ?_ (ih h hwritable.2)
      intro rest hrest
      have hdepth : doc.nesting ≤ depth := by
        rw [Value.nesting_of_ofDocument hvalue]
        exact Nat.zero_le depth
      show (readValue true depth (doc.chars ++ rest) >>= _) = _
      rw [readValue_chars true hwritable.1 hdepth rest hrest]
      show (orMismatch (Value.ofDocument doc) >>= _) = _
      rw [hvalue]
      rfl

/-- **A record is read from the text of its document.** -/
theorem readRecord_object {members : List (String × Json)} {record : Record}
    (h : ofDocument (.object members) = .ok record) (hwritable : membersWritable members)
    {depth : Nat} (hdepth : depth ≠ 0) (rest : List Char) :
    readRecord depth ((Json.object members).chars ++ rest) = .ok (record, rest) := by
  obtain ⟨depth, rfl⟩ := Nat.exists_eq_succ_of_ne_zero hdepth
  rw [chars, List.cons_append, List.cons_append, List.append_assoc]
  exact gatherMembers_separated (gathers_readField h hwritable depth) rest

end Record

/-! ## Bodies -/

theorem bytes_ofText (doc : Json) : (Body.ofText doc.text).bytes = bytesOf doc.chars := by
  rw [Body.ofText, Json.text, String.toList_ofList]

/-- The bytes of a document tell its characters: none of them looks like a stray byte. -/
theorem charsOf_ofText {doc : Json} (h : doc.isWritable) :
    charsOf (Body.ofText doc.text).bytes = doc.chars := by
  rw [bytes_ofText]
  exact charsOf_bytesOf_of_notMem (notMem_of_isPlain (isPlain_chars doc h) (by decide))

/-- A body that is an object is read by its members. -/
theorem BodyForm.read_text {σ α : Type} {form : BodyForm σ α} {members : List (String × Json)}
    {gathered : σ} {asked : α} (h : Gathers form.member form.none members gathered)
    (hwhole : form.whole gathered = .ok asked) (hwritable : membersWritable members) :
    form.read (Json.object members).text = .ok asked := by
  have hgathered : gatherMembers true form.member form.none
      (separated (memberChars members) ++ ['\x7d']) = .ok (gathered, []) :=
    gatherMembers_separated h []
  have hobject : (Json.object members).isWritable := hwritable
  unfold read
  rw [charsOf_ofText hobject, chars]
  show (gatherMembers true form.member form.none (separated (memberChars members) ++ ['\x7d'])
    >>= _) = _
  rw [hgathered]
  show (form.whole gathered >>= _) = _
  rw [hwhole]
  rfl

/-- A member that is given once is read behind its colon. -/
theorem memberOnce_none {α σ : Type} {value : List Char → Except ReadFault (α × List Char)}
    {put : α → σ} {x : α} {chars rest : List Char} (h : value (chars ++ rest) = .ok (x, rest)) :
    memberOnce value none put (':' :: chars ++ rest) = .ok (put x, rest) := by
  show (value (chars ++ rest) >>= _) = _
  rw [h]
  rfl

theorem truthAt_chars (b : Bool) (rest : List Char) :
    truthAt ((Json.bool b).chars ++ rest) = .ok (b, rest) := by
  cases b <;> rfl

/-- **A body with a rule text** asks for that text. -/
theorem read_createBody (text : String) :
    createBody.read (Json.object [("rule_string", .string text)]).text = .ok text := by
  have htext (rest : List Char) : createBody.member none "rule_string"
      (':' :: (Json.string text).chars ++ rest) = .ok (some text, rest) :=
    memberOnce_none (textAt_chars text rest)
  exact BodyForm.read_text (.member (some text) (fun rest _ => htext rest) (.none _)) rfl rfl

section Evaluations

variable {members : List (String × Json)} {record : Record}

/-- **A body with a record and a truth value** asks for an evaluation of a stored rule
on that record. -/
theorem read_judgeBody (h : Record.ofDocument (.object members) = .ok record)
    (hwritable : membersWritable members) (traced : Bool) :
    judgeBody.read (Json.object [("data", .object members), ("trace", .bool traced)]).text
      = .ok ⟨some record, some traced⟩ := by
  have hdata (rest : List Char) : judgeBody.member judgeBody.none "data"
      (':' :: (Json.object members).chars ++ rest) = .ok (⟨some record, none⟩, rest) := by
    show memberOnce (Record.readRecord bodyDepth) none
      (fun record => JudgeRequest.mk (some record) none) _ = _
    exact memberOnce_none (Record.readRecord_object h hwritable (by decide) rest)
  have htrace (rest : List Char) : judgeBody.member ⟨some record, none⟩ "trace"
      (':' :: (Json.bool traced).chars ++ rest) = .ok (⟨some record, some traced⟩, rest) := by
    show memberOnce truthAt none (fun traced => JudgeRequest.mk (some record) (some traced)) _ = _
    exact memberOnce_none (truthAt_chars traced rest)
  refine BodyForm.read_text (.member ⟨some record, none⟩ (fun rest _ => hdata rest)
    (.member ⟨some record, some traced⟩ (fun rest _ => htrace rest) (.none _))) rfl ?_
  simp [membersWritable, isWritable, hwritable]

/-- **A body with a document and a record** asks for an evaluation of that document on
that record. -/
theorem read_evaluateBody {doc : Json} (hdoc : doc.isWritable) (hdepth : doc.nesting ≤ bodyDepth)
    (h : Record.ofDocument (.object members) = .ok record) (hwritable : membersWritable members) :
    evaluateBody.read (Json.object [("ast", doc), ("data", .object members)]).text
      = .ok ⟨some doc, some record⟩ := by
  have hast (rest : List Char) (hrest : NumberEnd rest) :
      evaluateBody.member evaluateBody.none "ast" (':' :: doc.chars ++ rest)
        = .ok (⟨some doc, none⟩, rest) := by
    show memberOnce (readValue true bodyDepth) none
      (fun doc => EvaluateRequest.mk (some doc) none) _ = _
    exact memberOnce_none (readValue_chars true hdoc hdepth rest hrest)
  have hdata (rest : List Char) : evaluateBody.member ⟨some doc, none⟩ "data"
      (':' :: (Json.object members).chars ++ rest) = .ok (⟨some doc, some record⟩, rest) := by
    show memberOnce (Record.readRecord bodyDepth) none
      (fun record => EvaluateRequest.mk (some doc) (some record)) _ = _
    exact memberOnce_none (Record.readRecord_object h hwritable (by decide) rest)
  refine BodyForm.read_text (.member ⟨some doc, none⟩ hast
    (.member ⟨some doc, some record⟩ (fun rest _ => hdata rest) (.none _))) rfl ?_
  simp [membersWritable, isWritable, hdoc, hwritable]

end Evaluations

end Rulebook
