import Rulebook.Proofs.Http.HeaderValue
import Rulebook.Proofs.Service.Runs

/-!
# The id of a request

A request may bring an id in a header, which is a row of bytes like the value of every
header; what is inside the surroundings is given a text; and the response tells the id
in a header again. So an id passes two checks, one on the way in and one on the way
out, and if the second one failed the response would tell `unknown`.

It never does. An id that a request brings is taken only if it can be read, and then it
can be written with the same bytes; every other request gets an id drawn at random, all
of whose characters can be written. `surround_requestId` puts this together for anything
that can stand inside: what is inside sees the id that the response tells, whatever it
answers with, and the response tells no other.
-/

namespace Rulebook

/-- The characters of an id drawn at random: hexadecimal digits and hyphens. -/
def isIdChar (c : Char) : Bool := c == '-' || ('0' ≤ c && c ≤ '9') || ('a' ≤ c && c ≤ 'f')

/-- **The form of an id drawn at random**: 36 characters, each of them a hexadecimal digit
or a hyphen. -/
structure IsRandomId (id : String) : Prop where
  /-- There are 36 characters. -/
  length : id.length = 36
  /-- Each is a digit or a hyphen. -/
  chars : id.toList.all isIdChar

/-- An id drawn at random may be sent. -/
theorem IsRandomId.isSome_ofText? {id : String} (h : IsRandomId id) :
    (HeaderValue.ofText? id).isSome := by
  refine HeaderValue.isSome_ofText? fun c hc => ?_
  have hchar : c = '-' ∨ ('0' ≤ c ∧ c ≤ '9') ∨ ('a' ≤ c ∧ c ≤ 'f') := by
    simpa [isIdChar, or_assoc] using List.all_eq_true.mp h.chars c hc
  obtain rfl | ⟨hlow, hhigh⟩ | ⟨hlow, hhigh⟩ := hchar
  · decide
  · exact ⟨Nat.le_trans (by decide) hlow, Nat.lt_of_le_of_lt hhigh (by decide)⟩
  · exact ⟨Nat.le_trans (by decide) hlow, Nat.lt_of_le_of_lt hhigh (by decide)⟩

section RequestId

variable {request : Request} {generated : String}

/-- **An id that can be read is the id of the request**, and is written with the bytes with
which it came. -/
theorem ofText?_requestIdOf {value : HeaderValue}
    (hvalue : request.headers.first? requestIdHeader = some value)
    (hvisible : ∀ b ∈ value.bytes, HeaderValue.isVisibleByte b) :
    HeaderValue.ofText? (requestIdOf request generated) = some value := by
  obtain ⟨text, htext⟩ := Option.isSome_iff_exists.mp (HeaderValue.isSome_text?_iff.mpr hvisible)
  have hid : requestIdOf request generated = text := by
    rw [requestIdOf, hvalue, Option.bind_some, htext, Option.getD_some]
  rw [hid, HeaderValue.ofText?_of_text? htext]

/-- A request that brings no id that can be read gets a new one. -/
theorem requestIdOf_eq_generated
    (h : ∀ value, request.headers.first? requestIdHeader = some value →
      ¬ ∀ b ∈ value.bytes, HeaderValue.isVisibleByte b) :
    requestIdOf request generated = generated := by
  unfold requestIdOf
  cases hvalue : request.headers.first? requestIdHeader with
  | none => rfl
  | some value =>
    have htext : value.text? = none := by
      rw [← Option.not_isSome_iff_eq_none, HeaderValue.isSome_text?_iff]
      exact h value hvalue
    rw [Option.bind_some, htext, Option.getD_none]

/-- **Every id may be sent**, so that nothing has to stand in its place. -/
theorem isSome_ofText?_requestIdOf (hgenerated : IsRandomId generated) :
    (HeaderValue.ofText? (requestIdOf request generated)).isSome := by
  by_cases h : ∃ value, request.headers.first? requestIdHeader = some value ∧
      ∀ b ∈ value.bytes, HeaderValue.isVisibleByte b
  · obtain ⟨value, hvalue, hvisible⟩ := h
    rw [ofText?_requestIdOf hvalue hvisible]
    rfl
  · rw [requestIdOf_eq_generated fun value hvalue hvisible => h ⟨value, hvalue, hvisible⟩]
    exact hgenerated.isSome_ofText?

end RequestId

/-- **The id of a request.** Every request has one. It is the first one that it brings, if
its bytes are visible ASCII characters, spaces and tabs, and else the new one. It may be
sent as it is, so nothing stands in its place. What is inside the surroundings is given
this id and no other, and whatever it answers with – a response of its own, an error, or
nothing because only what is allowed was asked – the response has one header for the id,
which tells it. -/
theorem surround_requestId (c : Circumstances) (request : Request)
    (hgenerated : IsRandomId c.requestId) :
    ∃ id,
      (∀ value, request.headers.first? requestIdHeader = some value →
        (∀ b ∈ value.bytes, HeaderValue.isVisibleByte b) → HeaderValue.ofText id = value) ∧
      ((∀ value, request.headers.first? requestIdHeader = some value →
        ¬ ∀ b ∈ value.bytes, HeaderValue.isVisibleByte b) → id = c.requestId) ∧
      (HeaderValue.ofText? id).isSome ∧
      ∀ (σ : Type) (policy : OriginPolicy) (target : Option Target) (state : σ)
        (inner : String → σ × Outcome),
        surround policy c target request state inner
            = surround policy c target request state (fun _ => inner id) ∧
          (surround policy c target request state inner).2.response.headers.filter
            (fun h => h.1 == requestIdHeader) = [(requestIdHeader, id)] := by
  have hsendable : (HeaderValue.ofText? (requestIdOf request c.requestId)).isSome :=
    isSome_ofText?_requestIdOf hgenerated
  refine ⟨requestIdOf request c.requestId, fun value hvalue hvisible => ?_,
    fun hnone => requestIdOf_eq_generated hnone, hsendable, fun σ policy target state inner => ?_⟩
  · exact (HeaderValue.ofText?_eq_some_iff.mp (ofText?_requestIdOf hvalue hvisible)).2
  · refine ⟨rfl, ?_⟩
    have hsent : sentId (requestIdOf request c.requestId) = requestIdOf request c.requestId :=
      if_pos hsendable
    refine (Response.filter_headers_put _ _ _).trans ?_
    rw [hsent]

/-- A visit that brings two ids, the first of which is no text. -/
def sampleUnreadable : Visit :=
  ⟨⟨⟨"r", ⟨2024, 1, 9, 12, 0, 0, 0⟩⟩, "2f1c6a30-9d4e-4b7a-8c55-0e9d7f6a1b23", 0⟩,
    ⟨"GET", "/health", [(requestIdHeader, ⟨[0xff]⟩), (requestIdHeader, "b")], ""⟩⟩

/-- Where the first id is no text the new one is taken, also if what is inside answers with
an id of its own. -/
theorem surround_requestId_unreadable :
    IsRandomId sampleUnreadable.circumstances.requestId ∧
      (surround .any sampleUnreadable.circumstances none sampleUnreadable.request () fun _ =>
          ((), ⟨(Response.bare 500).put requestIdHeader "c", [], []⟩)).2.response.headers.filter
        (fun h => h.1 == requestIdHeader)
          = [(requestIdHeader, "2f1c6a30-9d4e-4b7a-8c55-0e9d7f6a1b23")] := by
  have hrandom : IsRandomId sampleUnreadable.circumstances.requestId :=
    ⟨by decide, by decide⟩
  obtain ⟨id, -, hnew, -, htold⟩ :=
    surround_requestId sampleUnreadable.circumstances sampleUnreadable.request hrandom
  have hid : id = sampleUnreadable.circumstances.requestId := by
    refine hnew fun value hvalue hvisible => ?_
    cases hvalue
    exact absurd (hvisible 0xff List.mem_cons_self) (by decide)
  refine ⟨hrandom, ?_⟩
  rw [(htold Unit .any none () _).2, hid]
  rfl

end Rulebook
