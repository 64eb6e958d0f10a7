import Rulebook.Proofs.Http.HeaderValue
import Rulebook.Proofs.Service.Runs
import Rulebook.Proofs.Service.Stages

/-!
# Which origins are allowed

The setting of the origins is any text, and what becomes of it shows in two places: when
the service starts, and in every response. `Allows` says what a response may tell, by the
setting and the origin of the request and nothing else: a star if the setting is a star,
the origin itself if it is one of the entries of the setting, byte for byte, and nothing
in every other case. Entries that cannot be sent never count, and an empty entry is the
empty origin.

`ofSetting?_allows` says that this is what responses tell, on every setting that gives a
policy – and which settings give none. Those are the ones with a star beside other
entries, so it is not true that every setting lets the service start
(`not_forall_ofSetting?_allows`).

The service itself sends two headers and no other (`Response.IsOwn`), so what a response
tells about origins comes from the policy alone.
-/

namespace Rulebook

/-! ## Entries -/

/-- **An entry of a setting**: the setting is a row of pieces with commas between them, and
the entry is one of the pieces without the blanks around it. -/
def IsEntry (setting entry : String) : Prop :=
  ∃ pieces : List (List Char), pieces ≠ [] ∧ (∀ piece ∈ pieces, ',' ∉ piece) ∧
    [','].intercalate pieces = setting.toList ∧
    ∃ piece ∈ pieces, String.ofList (trim piece) = entry

/-- A comma stands in no piece between commas. -/
theorem comma_notMem_of_mem_splitOn {text piece : List Char} (h : piece ∈ text.splitOn ',') :
    ',' ∉ piece := by
  induction text generalizing piece with
  | nil =>
    rw [List.splitOn_nil, List.mem_singleton] at h
    rw [h]
    exact List.not_mem_nil
  | cons c text ih =>
    rw [List.splitOn_cons_eq_if_modifyHead] at h
    split at h
    · obtain rfl | h := List.mem_cons.mp h
      · exact List.not_mem_nil
      · exact ih h
    · rename_i hc
      -- only the first piece grows
      cases hpieces : text.splitOn ',' with
      | nil => exact absurd hpieces (List.splitOn_ne_nil ',' text)
      | cons first more =>
        rw [hpieces] at h ih
        obtain rfl | h := List.mem_cons.mp h
        · rw [List.mem_cons, not_or]
          exact ⟨fun hcomma => hc (beq_iff_eq.mpr hcomma.symm), ih List.mem_cons_self⟩
        · exact ih (List.mem_cons_of_mem _ h)

theorem isEntry_iff {setting entry : String} :
    IsEntry setting entry ↔
      ∃ piece ∈ setting.toList.splitOn ',', String.ofList (trim piece) = entry := by
  constructor
  · rintro ⟨pieces, hne, hcommas, hsetting, hentry⟩
    rw [← hsetting, List.splitOn_intercalate ',' hcommas hne]
    exact hentry
  · intro hentry
    exact ⟨setting.toList.splitOn ',', List.splitOn_ne_nil _ _, fun _ hpiece =>
      comma_notMem_of_mem_splitOn hpiece, List.intercalate_splitOn ',', hentry⟩

/-- The items that a policy lists are the entries that may be sent. -/
theorem mem_originItems_iff {setting entry : String} :
    entry ∈ originItems setting ↔ IsEntry setting entry ∧ (HeaderValue.ofText? entry).isSome := by
  rw [originItems, List.mem_filter, List.mem_map, isEntry_iff]

/-- **The settings that give no policy** are those with a star beside other entries. -/
theorem OriginPolicy.ofSetting?_eq_none_iff {setting : String} :
    ofSetting? setting = none ↔ trim setting.toList ≠ ['*'] ∧ IsEntry setting "*" := by
  have hstar : (HeaderValue.ofText? "*").isSome := by decide
  unfold ofSetting?
  by_cases h : trim setting.toList = ['*']
  · rw [if_pos h]
    exact iff_of_false nofun fun hnone => hnone.1 h
  · rw [if_neg h]
    dsimp only
    rw [and_iff_right h, ite_eq_left_iff, List.contains_iff_mem, mem_originItems_iff,
      and_iff_left hstar]
    simp

/-! ## What responses tell -/

/-- The header that allows an origin. -/
def allowedOriginHeader : String := "access-control-allow-origin"

/-- What a response tells about the origin that is allowed. -/
def Response.allowedOrigins (response : Response) : List String :=
  (response.headers.filter fun h => h.1 == allowedOriginHeader).map Prod.snd

/-- **What a response may tell about origins**, by the setting and the origin of the
request. -/
inductive Allows (setting : String) : (origin : Option HeaderValue) → List String → Prop where
  /-- Every origin is allowed, whether the request has one or not. -/
  | every {origin : Option HeaderValue} (hstar : trim setting.toList = ['*']) :
    Allows setting origin ["*"]
  /-- The origin of the request is an entry of the setting. -/
  | listed {entry : String} {value : HeaderValue} (hstar : trim setting.toList ≠ ['*'])
      (hentry : IsEntry setting entry) (hvalue : HeaderValue.ofText? entry = some value) :
    Allows setting (some value) [entry]
  /-- No entry of the setting is the origin of the request. -/
  | unlisted {origin : Option HeaderValue} (hstar : trim setting.toList ≠ ['*'])
      (hnone : ∀ value, origin = some value → ∀ entry, IsEntry setting entry →
        HeaderValue.ofText? entry ≠ some value) :
    Allows setting origin []

/-- **What a policy allows** is what its setting allows. -/
theorem OriginPolicy.allows_allowed? {setting : String} {policy : OriginPolicy}
    (h : ofSetting? setting = some policy) (origin : Option HeaderValue) :
    Allows setting origin (policy.allowed? origin).toList := by
  unfold ofSetting? at h
  split at h
  · rename_i hstar
    cases h
    exact .every hstar
  · rename_i hstar
    dsimp only at h
    split at h
    · cases h
    · cases h
      cases origin with
      | none => exact .unlisted hstar nofun
      | some value =>
        show Allows setting _
          (((originItems setting).find? fun item => .ofText item == value).toList)
        cases hfound : (originItems setting).find? fun item => .ofText item == value with
        | some item =>
          obtain ⟨hentry, hsendable⟩ := mem_originItems_iff.mp (List.mem_of_find?_eq_some hfound)
          have hitem : HeaderValue.ofText item = value := by
            simpa using List.find?_some hfound
          exact .listed hstar hentry (HeaderValue.ofText?_eq_some_iff.mpr ⟨hsendable, hitem⟩)
        | none =>
          refine .unlisted hstar ?_
          rintro _ ⟨⟩ entry hentry hvalue
          obtain ⟨hsendable, heq⟩ := HeaderValue.ofText?_eq_some_iff.mp hvalue
          have hmem := mem_originItems_iff.mpr ⟨hentry, hsendable⟩
          simpa [heq] using List.find?_eq_none.mp hfound entry hmem

/-! ## What the service itself sends -/

/-- **A response of the service itself**: it has no headers but for the type of its body and
for the methods that are answered. -/
def Response.IsOwn (response : Response) : Prop :=
  ∀ h ∈ response.headers, h.1 = "content-type" ∨ h.1 = "allow"

/-- A stage whose response, if it is there, is one of the service itself. -/
def Stage.IsOwn : Stage → Prop
  | .answered response => response.IsOwn
  | _ => True

namespace Response

theorem isOwn_bare (status : Nat) : (bare status).IsOwn := nofun

theorem isOwn_plain (status : Nat) (body : String) : (plain status body).IsOwn := fun _ h =>
  .inl (congrArg Prod.fst (List.mem_singleton.mp h))

theorem isOwn_json (status : Nat) (body : String) : (json status body).IsOwn := fun _ h =>
  .inl (congrArg Prod.fst (List.mem_singleton.mp h))

/-- A response that tells nothing about origins is one of the service itself, or any other
without that header. -/
theorem IsOwn.allowedOrigins_eq_nil {response : Response} (h : response.IsOwn) :
    response.allowedOrigins = [] := by
  rw [allowedOrigins, List.map_eq_nil_iff, List.filter_eq_nil_iff]
  intro header hheader
  obtain hname | hname := h header hheader <;> rw [hname] <;> decide

theorem IsOwn.forMethod {response : Response} (h : response.IsOwn) (method : String) :
    (response.forMethod method).IsOwn := by
  unfold Response.forMethod
  split <;> exact h

/-- A header that has nothing to do with origins leaves alone what is told about them. -/
theorem allowedOrigins_put_of_ne (response : Response) {name : String} (value : String)
    (h : name ≠ allowedOriginHeader) :
    (response.put name value).allowedOrigins = response.allowedOrigins := by
  have hkept : (fun g : String × String => g.1 == allowedOriginHeader && g.1 != name)
      = fun g => g.1 == allowedOriginHeader := by
    funext g
    by_cases hg : g.1 = allowedOriginHeader <;> simp [hg, h.symm]
  have hname : (name == allowedOriginHeader) = false := beq_eq_false_iff_ne.mpr h
  simp only [allowedOrigins, put, List.filter_append, List.filter_filter, hkept,
    List.filter_cons, hname, List.filter_nil, List.append_nil, Bool.false_eq_true, if_false]

end Response

theorem Rejection.isOwn_response (r : Rejection) : r.response.IsOwn := Response.isOwn_json _ _

theorem BodyRefusal.isOwn_response (refusal : BodyRefusal) : refusal.response.IsOwn := by
  cases refusal <;> exact Response.isOwn_plain _ _

theorem isOwn_withBody {σ α : Type} {form : BodyForm σ α} {request : Request} {next : α → Turn}
    (h : ∀ asked, (next asked).stage.IsOwn) : (withBody form request next).stage.IsOwn := by
  unfold withBody
  split
  · exact h _
  · exact BodyRefusal.isOwn_response _

theorem isOwn_withId {piece : List Char} {next : String → Turn}
    (h : ∀ id, (next id).stage.IsOwn) : (withId piece next).stage.IsOwn := by
  unfold withId
  split
  · exact h _
  · exact Response.isOwn_plain _ _

theorem isOwn_combination (rules : List String) : (combination rules).stage.IsOwn := by
  unfold combination
  split
  · exact Rejection.isOwn_response _
  · exact Response.isOwn_json _ _

theorem isOwn_beginCreation (text : String) : (beginCreation text).stage.IsOwn := by
  unfold beginCreation
  split
  · exact Rejection.isOwn_response _
  · trivial

/-- What a request begins with comes from the service itself. -/
theorem isOwn_begin (request : Request) : (begin request).stage.IsOwn := by
  unfold begin
  split
  · exact Response.isOwn_bare _
  · unfold Route.begin?
    split
    · exact isOwn_withBody isOwn_beginCreation
    · exact isOwn_withBody isOwn_combination
    · exact isOwn_withBody fun asked => Response.isOwn_json _ _
    · trivial
    · trivial
    · exact isOwn_withId fun id => trivial
    · exact isOwn_withId fun id => trivial
    · exact isOwn_withId fun id => trivial
    · exact isOwn_withId fun id => isOwn_withBody fun asked => trivial
    · exact Response.isOwn_plain _ _
    · exact Response.isOwn_plain _ _
    · intro h hmem
      exact .inr (congrArg Prod.fst (List.mem_singleton.mp hmem))

theorem isOwn_afterReading {α : Type} {next : α → Turn} (h : ∀ found, (next found).stage.IsOwn)
    (result : Except RuleError α) : (afterReading result next).stage.IsOwn := by
  cases result with
  | ok found => exact h found
  | error error => exact Rejection.isOwn_response _

theorem isOwn_afterCompiling (text : String) (result : Except Malformed CompiledRule) :
    (afterCompiling text result).stage.IsOwn := by
  cases result with
  | ok compiled => trivial
  | error fault => exact Rejection.isOwn_response _

theorem isOwn_afterFinding (id : String) (found : Option Rule) :
    (afterFinding id found).stage.IsOwn := by
  cases found with
  | some rule => exact Response.isOwn_json _ _
  | none => exact Rejection.isOwn_response _

theorem isOwn_afterErasing (id : String) (found : Bool) : (afterErasing id found).stage.IsOwn := by
  cases found with
  | true => exact Response.isOwn_bare _
  | false => exact Rejection.isOwn_response _

theorem isOwn_afterJudging (id : String) (record : Record) (traced : Bool) (elapsed : Nat)
    (found : Option Rule) : (afterJudging id record traced elapsed found).stage.IsOwn := by
  cases found with
  | some rule => exact Response.isOwn_json _ _
  | none => exact Rejection.isOwn_response _

/-- **A step leads on within the service itself.** -/
theorem Stage.IsOwn.step {stage : Stage} (h : stage.IsOwn) (c : Circumstances) (state : State) :
    (step c state stage).2.stage.IsOwn := by
  obtain ⟨compiler, repository⟩ := state
  cases repository with
  | failing reason =>
    cases stage with
    | answered response => exact h
    | compiling text => exact isOwn_afterCompiling text _
    | _ => exact Rejection.isOwn_response _
  | memory store =>
    cases stage with
    | answered response => exact h
    | compiling text => exact isOwn_afterCompiling text _
    | saving compiled => exact Response.isOwn_json _ _
    | listing =>
      have hlisting (rules : List Rule) : (afterListing rules).stage.IsOwn :=
        Response.isOwn_json _ _
      exact isOwn_afterReading hlisting _
    | finding id => exact isOwn_afterReading (isOwn_afterFinding id) _
    | erasing id => exact isOwn_afterErasing id _
    | judging id record traced =>
      exact isOwn_afterReading (isOwn_afterJudging id record traced c.elapsed) _

/-- **Every response of the service is its own**: it tells nothing about origins. -/
theorem isOwn_runStages (c : Circumstances) (steps : Nat) (state : State) {turn : Turn}
    (h : turn.stage.IsOwn) : (runStages c steps state turn).2.response.IsOwn := by
  induction steps generalizing state turn with
  | zero =>
    obtain ⟨stage, journal, tallies⟩ := turn
    cases stage with
    | answered response => exact h
    | _ => exact Response.isOwn_bare _
  | succ steps ih =>
    obtain ⟨stage, journal, tallies⟩ := turn
    by_cases hanswered : ∃ response, stage = .answered response
    · obtain ⟨response, rfl⟩ := hanswered
      rw [runStages_answered]
      exact h
    · rw [runStages_onward fun response heq => hanswered ⟨response, heq⟩]
      exact ih _ (h.step c state)

theorem isOwn_serve (c : Circumstances) (state : State) (request : Request) :
    (serve c state request).2.response.IsOwn :=
  (isOwn_runStages c 2 state (isOwn_begin request)).forMethod request.method

/-! ## In the surroundings -/

/-- A response with the mark of a policy tells what the policy allows, if it told nothing
before. -/
theorem OriginPolicy.allowedOrigins_mark (policy : OriginPolicy) (request : Request)
    {response : Response} (h : response.allowedOrigins = []) :
    (policy.mark request response).allowedOrigins
      = (policy.allowed? (request.headers.first? "origin")).toList := by
  have hvary : (response.put "vary" varyValue).allowedOrigins = [] := by
    rw [Response.allowedOrigins_put_of_ne _ _ (by decide), h]
  unfold mark
  dsimp only
  split
  · rename_i origin hallowed
    rw [hallowed, Response.allowedOrigins,
      show "access-control-allow-origin" = allowedOriginHeader from rfl,
      Response.filter_headers_put]
    rfl
  · rename_i hallowed
    rw [hallowed, hvary]
    rfl

/-- The answer to the question what is allowed tells what the policy allows. -/
theorem OriginPolicy.allowedOrigins_preflight (policy : OriginPolicy) (request : Request) :
    (policy.preflight request).allowedOrigins
      = (policy.allowed? (request.headers.first? "origin")).toList := by
  refine policy.allowedOrigins_mark request ?_
  rw [Response.allowedOrigins_put_of_ne _ _ (by decide),
    Response.allowedOrigins_put_of_ne _ _ (by decide)]
  exact (Response.isOwn_bare 200).allowedOrigins_eq_nil

/-- **Every response tells what the policy allows**, whatever the request asks for. -/
theorem allowedOrigins_serveSurrounded (policy : OriginPolicy) (c : Circumstances)
    (state : State) (request : Request) :
    (serveSurrounded policy c state request).2.response.allowedOrigins
      = (policy.allowed? (request.headers.first? "origin")).toList := by
  show (Response.put (answerOrigins policy (Route.target? request) request state
    (serve c state request)).2.response requestIdHeader _).allowedOrigins = _
  rw [Response.allowedOrigins_put_of_ne _ _ (by decide)]
  unfold answerOrigins
  split
  · dsimp only
    split
    · rw [Response.allowedOrigins_put_of_ne _ _ (by decide), policy.allowedOrigins_preflight]
    · exact policy.allowedOrigins_preflight request
  · exact policy.allowedOrigins_mark request (isOwn_serve c state request).allowedOrigins_eq_nil

/-- **The origins that may use the service.** The setting gives no policy, and the service
does not start, exactly if it is no star but has a star among its entries. Every other
setting gives a policy under which every response, whatever was asked and however it went,
tells what the setting allows the origin of the request, and nothing else. -/
theorem ofSetting?_allows (setting : String) :
    (OriginPolicy.ofSetting? setting = none ↔
      trim setting.toList ≠ ['*'] ∧ IsEntry setting "*") ∧
    ∀ policy, OriginPolicy.ofSetting? setting = some policy →
      ∀ (c : Circumstances) (state : State) (request : Request),
        Allows setting (request.headers.first? "origin")
          (serveSurrounded policy c state request).2.response.allowedOrigins := by
  refine ⟨OriginPolicy.ofSetting?_eq_none_iff, fun policy hpolicy c state request => ?_⟩
  rw [allowedOrigins_serveSurrounded]
  exact OriginPolicy.allows_allowed? hpolicy _

/-- The question what is allowed, asked about a path that leads nowhere. -/
def sampleQuestion : Visit :=
  ⟨⟨⟨"r", ⟨2024, 1, 9, 12, 0, 0, 0⟩⟩, "q", 0⟩,
    ⟨"OPTIONS", "/nowhere", [("origin", "http://a.test")], ""⟩⟩

/-- A setting of two entries, one with blanks around it and one that cannot be sent: the
first one is the origin of a request, and the response tells it. -/
theorem ofSetting?_allows_padded :
    OriginPolicy.ofSetting? " http://a.test ,\x01" = some (.listed ["http://a.test"]) ∧
      Allows " http://a.test ,\x01" (some (.ofText "http://a.test"))
        (serveSurrounded (.listed ["http://a.test"]) sampleQuestion.circumstances .fresh
          sampleQuestion.request).2.response.allowedOrigins := by
  have hpolicy :
      OriginPolicy.ofSetting? " http://a.test ,\x01" = some (.listed ["http://a.test"]) := by
    decide +kernel
  exact ⟨hpolicy, (ofSetting?_allows _).2 _ hpolicy sampleQuestion.circumstances .fresh
    sampleQuestion.request⟩

/-- **Not every setting gives a policy**: a star beside an origin gives none. -/
theorem not_forall_ofSetting?_allows :
    ¬ ∀ setting, ∃ policy, OriginPolicy.ofSetting? setting = some policy ∧
      ∀ (c : Circumstances) (state : State) (request : Request),
        Allows setting (request.headers.first? "origin")
          (serveSurrounded policy c state request).2.response.allowedOrigins := by
  intro hall
  obtain ⟨policy, hpolicy, -⟩ := hall "http://a.test, *"
  have hnone : OriginPolicy.ofSetting? "http://a.test, *" = none := by decide +kernel
  rw [hnone] at hpolicy
  cases hpolicy

end Rulebook
