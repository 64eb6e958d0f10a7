import Rulebook.Proofs.DocumentEvaluation
import Rulebook.Proofs.EvaluationReport
import Rulebook.Proofs.FormulaText
import Rulebook.Proofs.Service.Bodies
import Rulebook.Proofs.Service.Runs

/-!
# The verdicts of the service

A rule can be evaluated in two ways: by its id, and by sending back the document
that the service gave out for it. Between the text of the rule and the two verdicts
lie a parser, two evaluators, the document that is kept, and the texts of the
responses and of the bodies. `verdicts_eq_ruleHolds` says that after any run of
the service both verdicts are the verdict on the formula of the text, as long as
the rule is there and the body of the request is not too long to be read. A body
that is too long is refused, and no verdict is told (`Visit.Hears`).

For this each answer is put down once as a document (`Visit.created`,
`Visit.shown`, `Visit.judged`, `Visit.evaluated`). The run keeps the document of
the rule in the store (`get?_stateAfter`), what is kept is the normal form of the
formula, and neither evaluator can tell the normal form from the formula.
-/

namespace Rulebook

/-! ## Reading responses -/

/-- **What a response says** under a key of its document. -/
def Response.member? (response : Response) (key : String) : Option Json :=
  match Json.read response.body with
  | .ok doc => doc.get? key
  | .error _ => none

/-- That a response says a verdict under a key. -/
def Response.Tells (response : Response) (key : String) (verdict : Bool) : Prop :=
  response.status = 200 ∧ response.member? key = some (.bool verdict)

theorem Response.member?_of_body {response : Response} {doc : Json}
    (hbody : response.body = doc.text) (hwritable : doc.isWritable)
    (hdepth : doc.nesting ≤ Json.nestingLimit) (key : String) :
    response.member? key = doc.get? key := by
  unfold member?
  rw [hbody, Json.read_text hwritable hdepth]

/-- The document of a parsed formula is not nested deep. -/
theorem Formula.nesting_le_of_parse {text : String} {f : Formula} (h : parse text = .ok f) :
    f.toDocument.nesting ≤ depthLimit + 1 := by
  rw [nesting_toDocument]
  exact Nat.succ_le_succ (depth_le_of_parse h)

theorem isWritable_creationDocument (rule : Rule) : (creationDocument rule).isWritable := by
  simp [creationDocument, Json.isWritable, Json.membersWritable, Formula.isWritable_toDocument]

theorem nesting_creationDocument (rule : Rule) :
    (creationDocument rule).nesting = rule.formula.toDocument.nesting + 1 := by
  simp [creationDocument, Json.nesting, Json.membersNesting]

/-- The response to a creation says what stands in its document. -/
theorem Response.member?_creation {response : Response} {rule : Rule} {text : String}
    (hparse : parse text = .ok rule.formula)
    (hbody : response.body = (creationDocument rule).text) (key : String) :
    response.member? key = (creationDocument rule).get? key := by
  refine member?_of_body hbody (isWritable_creationDocument rule) ?_ key
  rw [nesting_creationDocument]
  exact Nat.le_trans (Nat.succ_le_succ (Formula.nesting_le_of_parse hparse)) (by decide)

theorem Rule.isWritable_toDocument (rule : Rule) : rule.toDocument.isWritable := by
  simp [toDocument, Json.isWritable, Json.membersWritable, Formula.isWritable_toDocument]

theorem Rule.nesting_toDocument (rule : Rule) :
    rule.toDocument.nesting = rule.formula.toDocument.nesting + 1 := by
  simp [toDocument, Json.nesting, Json.membersNesting]

theorem itemsWritable_strings (texts : List String) :
    Json.itemsWritable (texts.map .string) := by
  induction texts with
  | nil => rw [List.map_nil, Json.itemsWritable]
  | cons text texts ih => rw [List.map_cons, Json.itemsWritable, Json.isWritable, ih]; rfl

theorem itemsNesting_strings (texts : List String) :
    Json.itemsNesting (texts.map .string) = 0 := by
  induction texts with
  | nil => rw [List.map_nil, Json.itemsNesting]
  | cons text texts ih => rw [List.map_cons, Json.itemsNesting, Json.nesting, ih]; rfl

theorem isWritable_reportDocument (id : String) (report : Report) {elapsed : Nat}
    (h : elapsed < 2 ^ (64 : Nat)) : (reportDocument id report elapsed).isWritable := by
  have hrange : -2 ^ (63 : Nat) ≤ (elapsed : Int) ∧ (elapsed : Int) < 2 ^ (64 : Nat) := by omega
  have helapsed : (JsonNumber.integer elapsed).isWritable := by
    rw [JsonNumber.isWritable]
    exact decide_eq_true hrange
  simp [reportDocument, Json.isWritable, Json.membersWritable, itemsWritable_strings, helapsed]

theorem nesting_reportDocument (id : String) (report : Report) (elapsed : Nat) :
    (reportDocument id report elapsed).nesting = 2 := by
  simp [reportDocument, Json.nesting, Json.membersNesting, itemsNesting_strings]

/-- The response to an evaluation of a document says its verdict. -/
theorem Response.member?_result {response : Response} {verdict : Bool}
    (hbody : response.body = (verdictDocument verdict).text) :
    response.member? "result" = some (.bool verdict) := by
  rw [member?_of_body hbody rfl (by cases verdict <;> decide)]
  rfl

/-- **That a response tells a verdict** under a key to a visit whose body is not too long to
be read. One with a longer body is answered with 413. -/
structure Visit.Hears (visit : Visit) (response : Response) (key : String) (verdict : Bool) :
    Prop where
  tells : visit.request.body.fits → response.Tells key verdict
  refused : visit.request.body.fits = false → response.status = 413

/-! ## One answer at a time -/

namespace Visit

variable {policy : OriginPolicy} {state : State} {store : Store} {visit : Visit}

/-- **A creation that is answered with 201 has parsed its text and saved the rule.** -/
theorem created {text : String} (hstore : state.repository = .memory store)
    (hasked : visit.request.Creates text) (hstatus : (visit.response policy state).status = 201) :
    ∃ f, parse text = .ok f ∧
      (visit.next policy state).repository
        = .memory (store.save (visit.circumstances.rule text f)) ∧
      (visit.response policy state).body
        = (creationDocument (visit.circumstances.rule text f)).text := by
  -- a text that is refused is not answered with 201
  have hrejected (rejection : Rejection) (h : visit.ServesAs store store rejection.response) :
      False := by
    have hanswer : (visit.response policy state).status = rejection.response.status :=
      (h.served hstore (.inr hasked.method)).2.1
    exact rejection.unchanged_response.1 (hanswer.symm.trans hstatus)
  have hbegin := begin_of_creates hasked
  unfold beginCreation at hbegin
  by_cases hempty : text.isEmpty
  · rw [if_pos hempty] at hbegin
    obtain ⟨rejection, hrejection⟩ : ∃ r, begin visit.request = .reject r := ⟨_, hbegin⟩
    refine (hrejected rejection fun compiler => ?_).elim
    rw [hrejection]
    exact servedAs_answered _
  · rw [if_neg hempty] at hbegin
    cases hparse : parse text with
    | error fault =>
      refine (hrejected (.malformed fault.message) fun compiler => ?_).elim
      rw [hbegin]
      exact servedAs_compiling_error hparse
    | ok f =>
      have hserves : visit.ServesAs store (store.save (visit.circumstances.rule text f))
          (.json 201 (creationDocument (visit.circumstances.rule text f)).text) := by
        intro compiler
        rw [hbegin]
        exact servedAs_compiling_ok hparse
      obtain ⟨hnext, -, hbody⟩ := hserves.served hstore (.inr hasked.method)
      exact ⟨f, rfl, hnext, hbody⟩

/-- **A rule that is kept is shown as its document.** -/
theorem shown (policy : OriginPolicy) {rule : Rule} (hstore : state.repository = .memory store)
    (hclock : rule.createdAt.isReal) (hget : store.get? rule.id = some rule.toDocument.sorted)
    (hasked : visit.request.Shows rule.id) :
    (visit.response policy state).status = 200 ∧
      (visit.response policy state).body = rule.toDocument.text := by
  have hfound : lookupResponse rule.id (fun rule => .json 200 rule.toDocument.text)
      (store.find rule.id) = .json 200 rule.toDocument.text := by
    rw [Store.find_of_get? hclock hget, ← rule.toDocument_normal]
    rfl
  have hserves : visit.ServesAs store store (.json 200 rule.toDocument.text) := by
    intro compiler
    rw [begin_of_shows hasked, ← hfound]
    exact servedAs_finding rule.id
  exact (hserves.served hstore (.inl hasked.method)).2

/-- **A body that is too long is refused.** -/
theorem refused (policy : OriginPolicy) (hstore : state.repository = .memory store)
    (hmethod : visit.request.method = "POST")
    (hbegin : begin visit.request = .answer BodyRefusal.length.response) :
    (visit.response policy state).status = 413 := by
  have hserves : visit.ServesAs store store BodyRefusal.length.response := by
    intro compiler
    rw [hbegin]
    exact servedAs_answered _
  exact (hserves.served hstore (.inr hmethod)).2.1

/-- **A rule that is kept is evaluated as the normal form of its formula.** -/
theorem judged (policy : OriginPolicy) {rule : Rule} {record : Record} {traced : Bool}
    (hstore : state.repository = .memory store) (hclock : rule.createdAt.isReal)
    (hget : store.get? rule.id = some rule.toDocument.sorted)
    (hasked : visit.request.Judges rule.id record traced) (hfits : visit.request.body.fits) :
    (visit.response policy state).status = 200 ∧
      (visit.response policy state).body = (reportDocument rule.id
        (rule.formula.normal.run traced record rootPath) visit.circumstances.elapsed).text := by
  have hserves : visit.ServesAs store store (.json 200 (reportDocument rule.id
      (rule.formula.normal.run traced record rootPath) visit.circumstances.elapsed).text) := by
    intro compiler
    rw [begin_of_judges hasked hfits]
    have hserved : ServedAs (runStages visit.circumstances 2 ⟨compiler, .memory store⟩
      (.onward (.judging rule.id record traced))) store _ := servedAs_judging rule.id record traced
    rwa [Store.find_of_get? hclock hget] at hserved
  exact (hserves.served hstore (.inr hasked.method)).2

/-- **A document that is sent is evaluated as it stands**, whatever is kept. -/
theorem evaluated (policy : OriginPolicy) {doc : Json} {record : Record}
    (hstore : state.repository = .memory store)
    (hasked : visit.request.Evaluates doc record) (hfits : visit.request.body.fits) :
    (visit.response policy state).status = 200 ∧
      (visit.response policy state).body = (verdictDocument (documentHolds record doc)).text := by
  obtain ⟨asked, hbegin, hdoc, rfl⟩ := begin_of_evaluates hasked hfits
  have hserves : visit.ServesAs store store
      (.json 200 (verdictDocument (documentHolds (asked.record.getD .empty) doc)).text) := by
    intro compiler
    rw [hbegin, documentEvaluation, hdoc]
    exact servedAs_answered _
  exact (hserves.served hstore (.inr hasked.method)).2

/-- **The verdict on a rule that is kept** is that of the normal form of its formula. -/
theorem hears_matched (policy : OriginPolicy) {rule : Rule} {record : Record} {traced : Bool}
    (hstore : state.repository = .memory store) (hclock : rule.createdAt.isReal)
    (hget : store.get? rule.id = some rule.toDocument.sorted)
    (hasked : visit.request.Judges rule.id record traced)
    (helapsed : visit.circumstances.elapsed < 2 ^ (64 : Nat)) :
    visit.Hears (visit.response policy state) "matched" (rule.formula.normal.holds record) where
  tells hfits := by
    obtain ⟨hstatus, hbody⟩ := judged policy hstore hclock hget hasked hfits
    refine ⟨hstatus, ?_⟩
    rw [Response.member?_of_body hbody (isWritable_reportDocument _ _ helapsed)
      (by rw [nesting_reportDocument]; decide), ← verdict_run traced]
    rfl
  refused hlong := refused policy hstore hasked.method (begin_of_judges_of_not_fits hasked hlong)

/-- **The verdict on a document that is sent** is that of the document. -/
theorem hears_result (policy : OriginPolicy) {doc : Json} {record : Record}
    (hstore : state.repository = .memory store) (hasked : visit.request.Evaluates doc record) :
    visit.Hears (visit.response policy state) "result" (documentHolds record doc) where
  tells hfits := by
    obtain ⟨hstatus, hbody⟩ := evaluated policy hstore hasked hfits
    exact ⟨hstatus, Response.member?_result hbody⟩
  refused hlong :=
    refused policy hstore hasked.method (begin_of_evaluates_of_not_fits hasked hlong)

end Visit

/-! ## The two ways to a verdict -/

/-- **A rule that a run has created and that is still there.** It was asked for with
a text and answered with 201, and no later visit deletes it. Ids are fresh, and
the clock shows a point in time. -/
structure Live (policy : OriginPolicy) (before : List Visit) (creation : Visit)
    (after : List Visit) (text : String) : Prop where
  fresh : FreshIds (before ++ creation :: after)
  clock : creation.circumstances.stamp.now.isReal
  asked : creation.request.Creates text
  answered : (creation.response policy (stateAfter policy .fresh before)).status = 201
  kept : ∀ served ∈ transcript policy (stateAfter policy .fresh (before ++ [creation])) after,
    ¬ Deletes creation.newId served

/-- That a document can be sent back with any record that can be written. -/
def CanBeSent (doc : Json) : Prop :=
  ∀ members record, Record.ofDocument (.object members) = .ok record →
    Json.membersWritable members →
    evaluateBody.read (Json.object [("ast", doc), ("data", .object members)]).text
      = .ok ⟨some doc, some record⟩

section Live

variable {policy : OriginPolicy} {before after : List Visit} {creation : Visit} {text : String}

/-- **What a live rule is**: its text is a rule, its creation was answered with the
document of the formula, and the store still keeps it. -/
theorem Live.exists_rule (h : Live policy before creation after text) :
    ∃ rule store, parse text = .ok rule.formula ∧ rule.id = creation.newId ∧
      rule.createdAt.isReal ∧
      (creation.response policy (stateAfter policy .fresh before)).body
        = (creationDocument rule).text ∧
      (stateAfter policy .fresh (before ++ creation :: after)).repository = .memory store ∧
      store.get? rule.id = some rule.toDocument.sorted := by
  obtain ⟨store, hstore⟩ : ∃ store, (stateAfter policy .fresh before).repository = .memory store :=
    exists_store_stateAfter policy before rfl
  obtain ⟨f, hparse, hsaved, hbody⟩ := Visit.created hstore h.asked h.answered
  -- no later visit gets the id of the rule, so none saves over it
  have hids : ∀ visit ∈ after, visit.newId ≠ creation.newId := by
    intro visit hvisit
    have hfresh := (List.pairwise_append.mp h.fresh).2.1
    exact ((List.pairwise_cons.mp hfresh).1 visit hvisit).symm
  have hkept := h.kept
  rw [stateAfter_append] at hkept
  obtain ⟨later, hlater, hget⟩ := get?_stateAfter hsaved hids hkept
  refine ⟨creation.circumstances.rule text f, later, hparse, rfl, h.clock, hbody, ?_, ?_⟩
  · rw [stateAfter_append]
    exact hlater
  · exact hget.trans (Store.get?_save store (creation.circumstances.rule text f))

/-- **The two ways to evaluate a rule agree with its text.** Whatever else the
service is asked, as long as a rule is there it is shown with the document that its
creation was answered with; evaluating it by its id, and evaluating that document
sent back in whatever order of members, both give the verdict on the formula of
its text, on every record, unless the body of the request is too long to be read. -/
theorem verdicts_eq_ruleHolds (h : Live policy before creation after text) :
    ∃ f ast, parse text = .ok f ∧
      (creation.response policy (stateAfter policy .fresh before)).member? "id"
        = some (.string creation.newId) ∧
      (creation.response policy (stateAfter policy .fresh before)).member? "ast" = some ast ∧
      CanBeSent ast ∧
      ∀ visit : Visit,
        let response :=
          visit.response policy (stateAfter policy .fresh (before ++ creation :: after))
        (visit.request.Shows creation.newId →
          response.status = 200 ∧ response.member? "ast" = some ast) ∧
        (∀ record traced, visit.request.Judges creation.newId record traced →
          visit.circumstances.elapsed < 2 ^ (64 : Nat) →
          visit.Hears response "matched" (ruleHolds (some f) record)) ∧
        ∀ sent record, visit.request.Evaluates sent record → sent.sorted = ast.sorted →
          visit.Hears response "result" (ruleHolds (some f) record) := by
  obtain ⟨rule, store, hparse, hid, hclock, hbody, hstore, hget⟩ := h.exists_rule
  have hnormal (record : Record) :
      rule.formula.normal.holds record = ruleHolds (some rule.formula) record :=
    Formula.holds_normal (isStorable_of_parse hparse) record
  have hnesting := Formula.nesting_le_of_parse hparse
  have hdepth : rule.formula.toDocument.nesting + 1 ≤ Json.nestingLimit :=
    Nat.le_trans (Nat.succ_le_succ hnesting) (by decide)
  have hcreation := Response.member?_creation hparse hbody
  rw [← hid]
  refine ⟨rule.formula, rule.formula.toDocument, hparse, hcreation "id", hcreation "ast", ?_,
    fun visit => ⟨fun hasked => ?_, ?_, ?_⟩⟩
  · intro members record hrecord hwritable
    exact read_evaluateBody rule.formula.isWritable_toDocument
      (Nat.le_trans hnesting (by decide)) hrecord hwritable
  · obtain ⟨hstatus, hshown⟩ := Visit.shown policy hstore hclock hget hasked
    refine ⟨hstatus, ?_⟩
    exact Response.member?_of_body hshown rule.isWritable_toDocument
      (rule.nesting_toDocument ▸ hdepth) "ast"
  · intro record traced hasked helapsed
    rw [← hnormal]
    exact Visit.hears_matched policy hstore hclock hget hasked helapsed
  · intro sent record hasked hsent
    -- what was sent and what was given out have the same sorted form
    have hverdict : documentHolds record sent = ruleHolds (some rule.formula) record := by
      rw [← documentHolds_sorted, hsent, documentHolds_sorted, documentHolds_toDocument, hnormal]
    rw [← hverdict]
    exact Visit.hears_result policy hstore hasked

end Live

/-- The visit that evaluates that rule by its id, where `a` is `x`. -/
def sampleJudging : Visit :=
  ⟨⟨⟨"s", ⟨2024, 1, 9, 12, 0, 1, 0⟩⟩, "q", 3⟩, documentRequest "/rules/r/evaluate"
    (.object [("data", .object [("a", .string "x")]), ("trace", .bool true)])⟩

/-- The visit that evaluates a document, where `a` is a text. -/
def sampleEvaluation (doc : Json) (text : String) : Visit :=
  ⟨⟨⟨"t", ⟨2024, 1, 9, 12, 0, 2, 0⟩⟩, "q", 0⟩, documentRequest "/evaluate_rule"
    (.object [("ast", doc), ("data", .object [("a", .string text)])])⟩

theorem live_sample : Live .any [] sampleCreation [sampleJudging] "a = 'x'" where
  fresh := by simp [FreshIds, Visit.newId, sampleCreation, sampleJudging]
  clock := by decide
  asked := ⟨rfl, ⟨[], by decide +kernel⟩, isJson_documentRequest _ _, by decide +kernel,
    read_createBody _⟩
  answered := by decide +kernel
  kept := by
    intro served hserved hdeletes
    rw [transcript, transcript, List.mem_singleton] at hserved
    rw [hserved] at hdeletes
    exact absurd hdeletes.1.method (by decide)

/-- That visit asks to evaluate the document, if the document can be sent. -/
theorem evaluates_sampleEvaluation {doc : Json} (h : CanBeSent doc) (text : String) :
    (sampleEvaluation doc text).request.Evaluates doc (Table.empty.insert "a" (.text text)) := by
  have hroute : Route.ofPath? ("/evaluate_rule".toList.takeWhile fun c => c != '?' && c != '#')
      = some (.evaluate, []) := by
    decide +kernel
  have hread : evaluateBody.read (sampleEvaluation doc text).request.body
      = .ok ⟨some doc, some (Table.empty.insert "a" (.text text))⟩ := h _ _ rfl rfl
  exact ⟨rfl, ⟨[], hroute⟩, isJson_documentRequest _ _, _, hread, rfl, rfl⟩

theorem bytes_sampleEvaluation (doc : Json) (text : String) :
    (sampleEvaluation doc text).request.body.bytes
      = bytesOf (Json.object [("ast", doc), ("data", .object [("a", .string text)])]).chars :=
  bytes_ofText _

/-- Its body has more bytes than the text has characters. -/
theorem length_sampleEvaluation (doc : Json) (text : String) :
    text.toList.length < (sampleEvaluation doc text).request.body.bytes.length := by
  have htext := Json.length_stringChars_ge text
  have hchars : text.toList.length < (Json.object [("ast", doc),
      ("data", .object [("a", .string text)])]).chars.length := by
    simp only [Json.chars, Json.memberChars, Json.separated, List.length_append,
      List.length_cons]
    omega
  rw [bytes_sampleEvaluation]
  exact Nat.lt_of_lt_of_le hchars (length_le_length_bytesOf _)

/-- A text of so many letters that no body which holds it is read. -/
def longText : String := String.ofList (List.replicate Body.limit 'x')

theorem fits_sampleEvaluation_longText (doc : Json) :
    (sampleEvaluation doc longText).request.body.fits = false := by
  have hlength := length_sampleEvaluation doc longText
  rw [longText, String.toList_ofList, List.length_replicate, ← longText] at hlength
  exact decide_eq_false (Nat.not_le_of_lt hlength)

/-- The rule `a = 'x'` holds where `a` is `x`, by its id and by the document that its
creation was answered with. Beside a record that is too long that document is refused. -/
theorem hears_sample :
    (sampleJudging.response .any (stateAfter .any .fresh [sampleCreation, sampleJudging])).Tells
        "matched" true ∧
      ∃ ast, (sampleCreation.response .any .fresh).member? "ast" = some ast ∧
        ((sampleEvaluation ast "x").response .any
          (stateAfter .any .fresh [sampleCreation, sampleJudging])).Tells "result" true ∧
        ((sampleEvaluation ast longText).response .any
          (stateAfter .any .fresh [sampleCreation, sampleJudging])).status = 413 := by
  have hparse : parse "a = 'x'" = .ok (.condition ⟨"a", .eq, .text "x"⟩) := rfl
  obtain ⟨f, ast, hf, -, hast, hsent, hvisit⟩ := verdicts_eq_ruleHolds live_sample
  cases hparse.symm.trans hf
  -- what the creation was answered with is the document of that condition
  obtain ⟨rule, -, hrule, -, -, hbody, -, -⟩ := live_sample.exists_rule
  have hformula : rule.formula = .condition ⟨"a", .eq, .text "x"⟩ :=
    Except.ok.inj (hrule.symm.trans hparse)
  have hcreated := Response.member?_creation hrule hbody "ast"
  have hdoc : ast = rule.formula.toDocument := Option.some.inj (hast.symm.trans hcreated)
  have hfits : (sampleEvaluation ast "x").request.body.fits := by
    rw [hdoc, hformula, Body.fits, bytes_sampleEvaluation]
    decide +kernel
  have hrecord : Record.ofDocument (.object [("a", .string "x")])
      = .ok (Table.empty.insert "a" (.text "x")) := rfl
  have hholds : ruleHolds (some (.condition ⟨"a", .eq, .text "x"⟩))
      (Table.empty.insert "a" (.text "x")) = true := by
    decide
  have hjudges : sampleJudging.request.Judges "r" (Table.empty.insert "a" (.text "x")) true :=
    ⟨rfl, ⟨['r'], by decide +kernel, by decide +kernel⟩, isJson_documentRequest _ _,
      ⟨_, read_judgeBody hrecord rfl true, rfl, rfl⟩⟩
  have hmatched := (hvisit sampleJudging).2.1 _ _ hjudges (by decide)
  have hresult := (hvisit (sampleEvaluation ast "x")).2.2 _ _
    (evaluates_sampleEvaluation hsent "x") rfl
  have hlong := (hvisit (sampleEvaluation ast longText)).2.2 _ _
    (evaluates_sampleEvaluation hsent longText) rfl
  rw [hholds] at hmatched hresult
  exact ⟨hmatched.tells (by decide +kernel), ast, hast, hresult.tells hfits,
    hlong.refused (fits_sampleEvaluation_longText ast)⟩

end Rulebook
