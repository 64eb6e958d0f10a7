import Rulebook.Service

/-!
# What requests ask for

A request is looked at in three places: the path says which route it takes and
can hold an id, the method says what is wanted there, and the body holds the
rest. For the requests that rules are about the three are put together here:
`Request.Creates`, `Lists`, `Shows`, `Erases`, `Judges` and `Evaluates`. Each of them
leads to one turn of its own, and nothing else leads to a turn that changes what
is kept (`asked_begin`).
-/

namespace Rulebook

namespace Request

/-- **A request that creates a rule** from a text. -/
structure Creates (request : Request) (text : String) : Prop where
  method : request.method = "POST"
  route : ∃ piece, Route.ofPath? request.path = some (.create, piece)
  isJson : request.isJson
  fits : request.body.fits
  body : createBody.read request.body = .ok text

/-- **A request that lists all rules.** -/
structure Lists (request : Request) : Prop where
  method : request.method = "GET"
  route : ∃ piece, Route.ofPath? request.path = some (.rules, piece)

/-- **A request that shows a rule.** -/
structure Shows (request : Request) (id : String) : Prop where
  method : request.method = "GET"
  route : ∃ piece, Route.ofPath? request.path = some (.rule, piece) ∧ percentDecode? piece = some id

/-- **A request that deletes a rule.** -/
structure Erases (request : Request) (id : String) : Prop where
  method : request.method = "DELETE"
  route : ∃ piece, Route.ofPath? request.path = some (.rule, piece) ∧ percentDecode? piece = some id

/-- **A request that asks to evaluate a stored rule** on a record, traced or not. Its body
may be too long to be read. -/
structure Judges (request : Request) (id : String) (record : Record) (traced : Bool) : Prop where
  method : request.method = "POST"
  route : ∃ piece,
    Route.ofPath? request.path = some (.judge, piece) ∧ percentDecode? piece = some id
  isJson : request.isJson
  body : ∃ asked, judgeBody.read request.body = .ok asked ∧ asked.record.getD .empty = record ∧
    asked.traced.getD false = traced

/-- **A request that asks to evaluate a document** on a record. Its body may be too long to
be read. -/
structure Evaluates (request : Request) (doc : Json) (record : Record) : Prop where
  method : request.method = "POST"
  route : ∃ piece, Route.ofPath? request.path = some (.evaluate, piece)
  isJson : request.isJson
  body : ∃ asked, evaluateBody.read request.body = .ok asked ∧ asked.document = some doc ∧
    asked.record.getD .empty = record

end Request

variable {request : Request}

section Bodies

variable {σ α : Type} {form : BodyForm σ α} {asked : α} {next : α → Turn}

/-- **A request is granted what it asks for** if it says that it is JSON, its body is not too
long, and the body reads as that. -/
theorem BodyForm.ask_eq_ok_iff :
    form.ask request = .ok asked ↔
      request.isJson ∧ request.body.fits ∧ form.read request.body = .ok asked := by
  unfold ask
  cases request.isJson with
  | false => exact iff_of_false nofun fun h => Bool.false_ne_true h.1
  | true =>
    cases request.body.fits with
    | false => exact iff_of_false nofun fun h => Bool.false_ne_true h.2.1
    | true =>
      rw [and_iff_right rfl, and_iff_right rfl]
      cases form.read request.body with
      | ok other =>
        show Except.ok other = Except.ok asked ↔ _
        rw [Except.ok.injEq, Except.ok.injEq]
      | error fault => cases fault <;> exact iff_of_false nofun nofun

theorem withBody_of_read (hjson : request.isJson) (hfits : request.body.fits)
    (hread : form.read request.body = .ok asked) : withBody form request next = next asked := by
  unfold withBody
  rw [BodyForm.ask_eq_ok_iff.mpr ⟨hjson, hfits, hread⟩]

/-- A body that is too long is refused, whatever it says. -/
theorem withBody_of_not_fits (hjson : request.isJson) (hfits : request.body.fits = false) :
    withBody form request next = .answer BodyRefusal.length.response := by
  unfold withBody BodyForm.ask
  rw [hjson, hfits]
  rfl

end Bodies

theorem withId_of_decode {piece : List Char} {id : String} {next : String → Turn}
    (h : percentDecode? piece = some id) : withId piece next = next id := by
  unfold withId
  rw [h]

theorem begin_of_creates {text : String} (h : request.Creates text) :
    begin request = beginCreation text := by
  obtain ⟨piece, hroute⟩ := h.route
  unfold begin Route.begin?
  rw [hroute, h.method]
  exact withBody_of_read h.isJson h.fits h.body

theorem begin_of_lists (h : request.Lists) : begin request = .onward .listing := by
  obtain ⟨piece, hroute⟩ := h.route
  unfold begin Route.begin?
  rw [hroute, h.method]
  rfl

theorem begin_of_shows {id : String} (h : request.Shows id) :
    begin request = .onward (.finding id) := by
  obtain ⟨piece, hroute, hid⟩ := h.route
  unfold begin Route.begin?
  rw [hroute, h.method]
  exact withId_of_decode hid

theorem begin_of_erases {id : String} (h : request.Erases id) :
    begin request = .onward (.erasing id) := by
  obtain ⟨piece, hroute, hid⟩ := h.route
  unfold begin Route.begin?
  rw [hroute, h.method]
  exact withId_of_decode hid

theorem begin_of_judges {id : String} {record : Record} {traced : Bool}
    (h : request.Judges id record traced) (hfits : request.body.fits) :
    begin request = .onward (.judging id record traced) := by
  obtain ⟨piece, hroute, hid⟩ := h.route
  obtain ⟨asked, hread, rfl, rfl⟩ := h.body
  unfold begin Route.begin?
  rw [hroute, h.method]
  exact (withId_of_decode hid).trans (withBody_of_read h.isJson hfits hread)

theorem begin_of_judges_of_not_fits {id : String} {record : Record} {traced : Bool}
    (h : request.Judges id record traced) (hfits : request.body.fits = false) :
    begin request = .answer BodyRefusal.length.response := by
  obtain ⟨piece, hroute, hid⟩ := h.route
  unfold begin Route.begin?
  rw [hroute, h.method]
  exact (withId_of_decode hid).trans (withBody_of_not_fits h.isJson hfits)

theorem begin_of_evaluates {doc : Json} {record : Record} (h : request.Evaluates doc record)
    (hfits : request.body.fits) :
    ∃ asked, begin request = documentEvaluation asked ∧ asked.document = some doc ∧
      asked.record.getD .empty = record := by
  obtain ⟨piece, hroute⟩ := h.route
  obtain ⟨asked, hread, hdoc, hrecord⟩ := h.body
  refine ⟨asked, ?_, hdoc, hrecord⟩
  unfold begin Route.begin?
  rw [hroute, h.method]
  exact withBody_of_read h.isJson hfits hread

theorem begin_of_evaluates_of_not_fits {doc : Json} {record : Record}
    (h : request.Evaluates doc record) (hfits : request.body.fits = false) :
    begin request = .answer BodyRefusal.length.response := by
  obtain ⟨piece, hroute⟩ := h.route
  unfold begin Route.begin?
  rw [hroute, h.method]
  exact withBody_of_not_fits h.isJson hfits

/-! ## All requests -/

/-- That a response does not say that anything was changed. -/
def Response.Unchanged (response : Response) : Prop :=
  response.status ≠ 201 ∧ response.status ≠ 204

/-- **The stages that requests begin at.** Only a creation gets a text compiled,
and only a deletion gets a rule deleted. -/
inductive Asked (request : Request) : Stage → Prop where
  /-- The response is there at once. -/
  | answered {response : Response} (h : response.Unchanged) : Asked request (.answered response)
  /-- A text has to be compiled. -/
  | compiling {text : String} (h : request.Creates text) : Asked request (.compiling text)
  /-- All rules are asked for. -/
  | listing : Asked request .listing
  /-- A rule is asked for. -/
  | finding (id : String) : Asked request (.finding id)
  /-- A rule has to be deleted. -/
  | erasing {id : String} (h : request.Erases id) : Asked request (.erasing id)
  /-- A rule has to be evaluated. -/
  | judging (id : String) (record : Record) (traced : Bool) :
    Asked request (.judging id record traced)

/-- An answer with the status 200 says that nothing was changed. -/
theorem Response.unchanged_json (body : String) : (Response.json 200 body).Unchanged :=
  ⟨Nat.ne_of_beq_eq_false rfl, Nat.ne_of_beq_eq_false rfl⟩

/-- A rejection says that nothing was changed. -/
theorem Rejection.unchanged_response (r : Rejection) : r.response.Unchanged := by
  cases r <;> exact ⟨Nat.ne_of_beq_eq_false rfl, Nat.ne_of_beq_eq_false rfl⟩

/-- A body that is refused changes nothing. -/
theorem BodyRefusal.unchanged_response (refusal : BodyRefusal) : refusal.response.Unchanged := by
  cases refusal <;> exact ⟨by decide, by decide⟩

theorem asked_withBody {σ α : Type} {form : BodyForm σ α} {next : α → Turn}
    (h : ∀ asked, form.ask request = .ok asked → Asked request (next asked).stage) :
    Asked request (withBody form request next).stage := by
  unfold withBody
  split
  · rename_i asked hask
    exact h asked hask
  · exact .answered (BodyRefusal.unchanged_response _)

theorem asked_withId {piece : List Char} {next : String → Turn}
    (h : ∀ id, percentDecode? piece = some id → Asked request (next id).stage) :
    Asked request (withId piece next).stage := by
  unfold withId
  split
  · rename_i id hid
    exact h id hid
  · exact .answered ⟨by decide, by decide⟩

/-- A text that is not empty is compiled. -/
theorem asked_beginCreation {text : String} (h : request.Creates text) :
    Asked request (beginCreation text).stage := by
  unfold beginCreation
  split
  · exact .answered (Rejection.unchanged_response _)
  · exact .compiling h

theorem asked_combination (rules : List String) : Asked request (combination rules).stage := by
  unfold combination
  split
  · exact .answered (Rejection.unchanged_response _)
  · exact .answered (Response.unchanged_json _)

/-- **Every request begins at one of the stages.** -/
theorem asked_begin (request : Request) : Asked request (begin request).stage := by
  unfold begin
  split
  · exact .answered ⟨by decide, by decide⟩
  · rename_i route piece hroute
    unfold Route.begin?
    split
    · rename_i hmethod
      refine asked_withBody fun text hask => ?_
      obtain ⟨hjson, hfits, hread⟩ := BodyForm.ask_eq_ok_iff.mp hask
      exact asked_beginCreation ⟨hmethod, ⟨piece, hroute⟩, hjson, hfits, hread⟩
    · exact asked_withBody fun rules _ => asked_combination rules
    · exact asked_withBody fun asked _ => .answered (Response.unchanged_json _)
    · exact .listing
    · exact .listing
    · exact asked_withId fun id _ => .finding id
    · exact asked_withId fun id _ => .finding id
    · rename_i hmethod
      exact asked_withId fun id hid => .erasing ⟨hmethod, piece, hroute, hid⟩
    · exact asked_withId fun id _ => asked_withBody fun asked _ => .judging id _ _
    · exact .answered ⟨by decide, by decide⟩
    · exact .answered ⟨by decide, by decide⟩
    · exact .answered ⟨Nat.ne_of_beq_eq_false rfl, Nat.ne_of_beq_eq_false rfl⟩

end Rulebook
