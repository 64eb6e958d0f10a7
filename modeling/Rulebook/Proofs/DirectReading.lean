import Rulebook.Formula.Reader
import Rulebook.Proofs.DocumentEssence
import Rulebook.Proofs.Json.RoundTrip

/-!
# Reading a formula straight from a text

A formula can be read from a text in two ways: the text is read as a document, and the
sorted document is decoded, or the formula is read straight away. The direct reader meets
members in the order of the text, and it looks at the type of the outermost node as soon
as it meets it.

What the direct reader reads is the document of the text (`Formula.readValue_of_readNode`),
and it stops early only at documents that are not decoded anyway
(`Formula.readNode_of_readValue`). So the two ways agree on every text in which no object
repeats a key, and neither the order of members nor members of other keys make a
difference (`Formula.ofText_eq_ok_iff_ofDocument`).
-/

namespace Rulebook

namespace Json

variable {text rest : List Char} {depth : Nat}

theorem orMismatch_eq_ok_iff {ε α : Type} {outcome : Except ε α} {x : α} :
    orMismatch outcome = .ok x ↔ outcome = .ok x := by
  cases outcome <;> simp [orMismatch]

theorem mismatchHere_ne_ok {α : Type} {x : α × List Char} : mismatchHere text ≠ .ok x := by
  intro h
  unfold mismatchHere at h
  split at h
  · cases h
  · cases h
  · obtain ⟨_, -, h⟩ := bind_eq_ok_iff.mp h
    cases h

/-- A text is read as a text where it is read as a value. -/
theorem textAt_eq_ok_iff {s : String} (depth : Nat) :
    textAt text = .ok (s, rest) ↔ readValue true depth text = .ok (.string s, rest) := by
  constructor
  · intro h
    unfold textAt at h
    split at h
    · rename_i body hgap
      unfold readValue
      rw [hgap]
      exact bind_eq_ok_iff.mpr ⟨(s, rest), h, rfl⟩
    · exact (mismatchHere_ne_ok h).elim
  · intro h
    cases readFrom_of_readValue h with
    | string hgap h =>
      unfold textAt
      rw [hgap]
      exact h

/-- A text takes its quote at least. -/
theorem length_lt_of_textAt {s : String} (h : textAt text = .ok (s, rest)) :
    rest.length < text.length := by
  unfold textAt at h
  split at h
  · rename_i body hgap
    have hbody := (textBody_suffix h).length_le
    have htext : ('"' :: body).length ≤ text.length := hgap ▸ (skipGap_suffix text).length_le
    exact Nat.lt_of_le_of_lt hbody htext
  · exact (mismatchHere_ne_ok h).elim

end Json

namespace Formula

open Json

variable {text rest : List Char} {gathered more : List (String × Json)} {key : String} {doc : Json}

theorem readKind_eq_ok_iff (depth : Nat) :
    readKind text = .ok (doc, rest) ↔
      (∃ kind, NodeKind.ofDocument true doc = .ok kind) ∧
        readValue true depth text = .ok (doc, rest) := by
  constructor
  · intro h
    obtain ⟨⟨name, after⟩, hname, h⟩ := bind_eq_ok_iff.mp h
    obtain ⟨kind, hkind, h⟩ := bind_eq_ok_iff.mp h
    cases h
    exact ⟨⟨kind, orMismatch_eq_ok_iff.mp hkind⟩, (textAt_eq_ok_iff depth).mp hname⟩
  · rintro ⟨⟨kind, hkind⟩, h⟩
    have hnamed := NodeKind.ofDocument_eq_ok_iff.mp hkind
    obtain ⟨name, rfl⟩ : ∃ name, doc = .string name := by
      cases hnamed with
      | operator => exact ⟨_, rfl⟩
      | operand => exact ⟨_, rfl⟩
      | zero houter => cases houter
      | one houter => cases houter
    exact bind_eq_ok_iff.mpr ⟨(name, rest), (textAt_eq_ok_iff depth).mpr h,
      bind_eq_ok_iff.mpr ⟨kind, orMismatch_eq_ok_iff.mpr hkind, rfl⟩⟩

/-! ## Members -/

/-- **That the members gathered so far have a type at most once**, and one that is the name
of a kind. -/
structure KindNamed (gathered : List (String × Json)) : Prop where
  /-- The type is given once at most. -/
  once : (gathered.map Prod.fst).count "type" ≤ 1
  /-- It names a kind. -/
  named : ∀ doc, ("type", doc) ∈ gathered → ∃ kind, NodeKind.ofDocument true doc = .ok kind

theorem KindNamed.tail {member : String × Json} (h : KindNamed (member :: gathered)) :
    KindNamed gathered where
  once := by
    have honce := h.once
    rw [List.map_cons, List.count_cons] at honce
    omega
  named doc hdoc := h.named doc (List.mem_cons_of_mem _ hdoc)

/-- One more member that is read is kept as any document keeps it. -/
theorem keepMember_of_readMember (h : readMember gathered key text = .ok (more, rest)) :
    keepMember (readValue true (nestingLimit - 1)) gathered key text = .ok (more, rest) := by
  unfold readMember at h
  split at h
  · split at h
    · cases h
    · obtain ⟨place, hplace, h⟩ := bind_eq_ok_iff.mp h
      obtain ⟨⟨kind, after⟩, hkind, h⟩ := bind_eq_ok_iff.mp h
      cases h
      exact bind_eq_ok_iff.mpr ⟨place, hplace,
        bind_eq_ok_iff.mpr ⟨(kind, rest), ((readKind_eq_ok_iff _).mp hkind).2, rfl⟩⟩
  · exact h

/-- One more member that is kept is read, if it may stand there. -/
theorem readMember_of_keepMember
    (h : keepMember (readValue true (nestingLimit - 1)) gathered key text = .ok (more, rest))
    (hkind : KindNamed more) :
    KindNamed gathered ∧ readMember gathered key text = .ok (more, rest) := by
  obtain ⟨place, hplace, h⟩ := bind_eq_ok_iff.mp h
  obtain ⟨⟨doc, after⟩, hdoc, h⟩ := bind_eq_ok_iff.mp h
  cases h
  refine ⟨hkind.tail, ?_⟩
  unfold readMember
  by_cases htype : key = "type"
  · subst htype
    have hnot : "type" ∉ gathered.map Prod.fst := by
      have honce := hkind.once
      rw [List.map_cons, List.count_cons_self] at honce
      exact List.count_eq_zero.mp (by omega)
    have hread : readKind place = .ok (doc, rest) :=
      (readKind_eq_ok_iff _).mpr ⟨hkind.named doc (List.mem_cons_self ..), hdoc⟩
    rw [if_pos rfl, lookupLast_eq_none hnot]
    exact bind_eq_ok_iff.mpr ⟨place, hplace, bind_eq_ok_iff.mpr ⟨(doc, rest), hread, rfl⟩⟩
  · rw [if_neg htype]
    exact bind_eq_ok_iff.mpr ⟨place, hplace, bind_eq_ok_iff.mpr ⟨(doc, rest), hdoc, rfl⟩⟩

/-! ## The outermost node -/

/-- **A node that is read straight away is the document that is read.** -/
theorem readValue_of_readNode (h : readNode text = .ok (doc, rest)) :
    readValue true nestingLimit text = .ok (doc, rest) := by
  unfold readNode at h
  split at h
  · rename_i body hgap
    obtain ⟨⟨gathered, after⟩, hgathered, h⟩ := bind_eq_ok_iff.mp h
    cases h
    -- every step of the direct reader is one of the other, so any list is a good one
    have hstep {gathered : List (String × Json)} {key : String} {text : List Char}
        {more : List (String × Json)} {rest : List Char}
        (h : readMember gathered key text = .ok (more, rest)) (_ : True) :
        True ∧ keepMember (readValue true (nestingLimit - 1)) gathered key text
          = .ok (more, rest) := ⟨trivial, keepMember_of_readMember h⟩
    have hkept := (membersFrom_of_step hstep hgathered trivial).2
    unfold readValue
    rw [hgap]
    refine bind_eq_ok_iff.mpr ⟨(gathered.reverse, rest), ?_, rfl⟩
    exact bind_eq_ok_iff.mpr ⟨(gathered, rest), hkept, rfl⟩
  · rename_i body hgap
    obtain ⟨first, hfirst, h⟩ := bind_eq_ok_iff.mp h
    cases first with
    | none => cases h
    | some place =>
      obtain ⟨⟨kind, behind⟩, hkind, h⟩ := bind_eq_ok_iff.mp h
      obtain ⟨⟨items, after⟩, hitems, h⟩ := bind_eq_ok_iff.mp h
      cases h
      have hread := ((readKind_eq_ok_iff (nestingLimit - 1)).mp hkind).2
      have hbehind : behind.length < body.length := by
        obtain ⟨⟨name, left⟩, hname, hkind⟩ := bind_eq_ok_iff.mp hkind
        obtain ⟨_, -, hkind⟩ := bind_eq_ok_iff.mp hkind
        cases hkind
        exact Nat.lt_of_lt_of_le (length_lt_of_textAt hname) (nextItem_suffix hfirst).length_le
      unfold readValue
      rw [hgap]
      refine bind_eq_ok_iff.mpr ⟨(kind :: items, rest), ?_, rfl⟩
      refine bind_eq_ok_iff.mpr ⟨some place, hfirst, ?_⟩
      refine bind_eq_ok_iff.mpr ⟨(kind, behind), hread, ?_⟩
      exact itemsFrom_eq_ok_iff.mpr
        ⟨items, rfl, itemsFrom_of_fuel (readValue_suffix _ _) hbehind hitems⟩
  · exact (mismatchHere_ne_ok h).elim

/-- The types of members that are decoded name kinds. -/
theorem kindNamed_of_ofDocument {members : List (String × Json)} {f : Formula}
    (h : ofDocument (.object members) = .ok f) : KindNamed members.reverse := by
  unfold ofDocument at h
  rw [ofNode] at h
  obtain ⟨kind, hkind, -⟩ := bind_eq_ok_iff.mp h
  have hgiven := NodeKind.ofMembers_eq_ok_iff.mp hkind
  refine ⟨?_, fun doc hdoc => ⟨kind, ?_⟩⟩
  · rw [List.map_reverse, List.count_reverse]
    exact count_le_one_of_givenOnce hgiven
  · exact read_of_givenOnce hgiven (List.mem_reverse.mp hdoc)

/-- The kind at the start of a row that is decoded is the name of one. -/
theorem exists_kind_of_ofDocument {items : List Json} {f : Formula}
    (h : ofDocument (.array items) = .ok f) :
    ∃ kind rest k, items = kind :: rest ∧ NodeKind.ofDocument true kind = .ok k := by
  unfold ofDocument at h
  cases items with
  | nil => rw [ofNode] at h; cases h
  | cons kind rest =>
    rw [ofNode] at h
    obtain ⟨k, hk, -⟩ := bind_eq_ok_iff.mp h
    exact ⟨kind, rest, k, rfl, hk⟩

/-- **A document that is read and decoded is read straight away.** -/
theorem readNode_of_readValue {f : Formula} (h : readValue true nestingLimit text = .ok (doc, rest))
    (hf : ofDocument doc = .ok f) : readNode text = .ok (doc, rest) := by
  unfold readNode
  have hread := readFrom_of_readValue h
  generalize hlimit : nestingLimit = limit at hread
  cases hread with
  | @object depth body rest members hgap hmembers =>
    obtain rfl : depth = nestingLimit - 1 := by omega
    obtain ⟨⟨gathered, after⟩, hgathered, hmembers⟩ := bind_eq_ok_iff.mp hmembers
    cases hmembers
    have hkinds : KindNamed gathered := by simpa using kindNamed_of_ofDocument hf
    have hnode := (membersFrom_of_step readMember_of_keepMember hgathered hkinds).2
    rw [hgap]
    exact bind_eq_ok_iff.mpr ⟨(gathered, rest), hnode, rfl⟩
  | @array depth body rest items hgap hitems =>
    obtain rfl : depth = nestingLimit - 1 := by omega
    obtain ⟨kind, others, k, rfl, hk⟩ := exists_kind_of_ofDocument hf
    obtain ⟨first, hfirst, hitems⟩ := bind_eq_ok_iff.mp hitems
    cases first with
    | none =>
      obtain ⟨_, -, hitems⟩ := bind_eq_ok_iff.mp hitems
      cases hitems
    | some place =>
      obtain ⟨⟨item, behind⟩, hitem, hitems⟩ := bind_eq_ok_iff.mp hitems
      obtain ⟨more, hcons, hmore⟩ := itemsFrom_eq_ok_iff.mp hitems
      cases hcons
      rw [hgap]
      refine bind_eq_ok_iff.mpr ⟨some place, hfirst, ?_⟩
      refine bind_eq_ok_iff.mpr ⟨(kind, behind), (readKind_eq_ok_iff _).mpr ⟨⟨k, hk⟩, hitem⟩, ?_⟩
      refine bind_eq_ok_iff.mpr ⟨(more, rest), ?_, rfl⟩
      exact itemsFrom_of_fuel (readValue_suffix _ _) (Nat.lt_succ_self _) hmore
  | _ => simp [ofDocument, ofNode] at hf

/-- A formula is read straight away where its document is read and decoded. -/
theorem ofText_eq_ok_iff {text : String} {f : Formula} :
    ofText text = .ok f ↔ ∃ doc, Json.read text = .ok doc ∧ ofDocument doc = .ok f := by
  constructor
  · intro h
    obtain ⟨⟨doc, rest⟩, hnode, h⟩ := bind_eq_ok_iff.mp h
    obtain ⟨g, hg, h⟩ := bind_eq_ok_iff.mp h
    obtain ⟨_, hend, h⟩ := bind_eq_ok_iff.mp h
    cases h
    exact ⟨doc, bind_eq_ok_iff.mpr ⟨(doc, rest), readValue_of_readNode hnode,
      bind_eq_ok_iff.mpr ⟨(), hend, rfl⟩⟩, orMismatch_eq_ok_iff.mp hg⟩
  · rintro ⟨doc, hread, hf⟩
    obtain ⟨⟨read, rest⟩, hvalue, hread⟩ := bind_eq_ok_iff.mp hread
    obtain ⟨_, hend, hread⟩ := bind_eq_ok_iff.mp hread
    cases hread
    exact bind_eq_ok_iff.mpr ⟨(doc, rest), readNode_of_readValue hvalue hf,
      bind_eq_ok_iff.mpr ⟨f, orMismatch_eq_ok_iff.mpr hf, bind_eq_ok_iff.mpr ⟨(), hend, rfl⟩⟩⟩

/-- **A formula is read from a text straight away where it is decoded from the sorted
document of the text**, if no object of the text repeats a key. What is read straight away
always has a document that is decoded, and texts whose documents differ in the order of
members and in members of other keys only are read alike. -/
theorem ofText_eq_ok_iff_ofDocument :
    (∀ (text : String) (doc : Json) (f : Formula), Json.read text = .ok doc →
      doc.hasDistinctKeys = true → (ofText text = .ok f ↔ ofDocument doc.sorted = .ok f)) ∧
    (∀ (text : String) (f : Formula), ofText text = .ok f →
      ∃ doc, Json.read text = .ok doc ∧ ofDocument doc.sorted = .ok f) ∧
    (∀ (text text' : String) (doc doc' : Json) (f : Formula), Json.read text = .ok doc →
      Json.read text' = .ok doc' → doc.hasDistinctKeys = true → doc'.hasDistinctKeys = true →
      (essence doc).sorted = (essence doc').sorted →
      (ofText text = .ok f ↔ ofText text' = .ok f)) := by
  have hdocument {text : String} {doc : Json} {f : Formula} (hread : Json.read text = .ok doc) :
      ofText text = .ok f ↔ ofDocument doc = .ok f := by
    rw [ofText_eq_ok_iff, hread]
    simp
  refine ⟨fun text doc f hread hkeys => ?_, fun text f h => ?_, ?_⟩
  · rw [hdocument hread, ofDocument_sorted_iff hkeys]
  · obtain ⟨doc, hread, hf⟩ := ofText_eq_ok_iff.mp h
    refine ⟨doc, hread, ofNode_of_written ?_ doc.hasDistinctKeys_sorted⟩
    exact (written_rewritten_iff keepsNodes_sorted).mpr (written_of_ofNode hf)
  · intro text text' doc doc' f hread hread' hkeys hkeys' hessence
    rw [hdocument hread, hdocument hread']
    exact ofDocument_congr hkeys hkeys' hessence

/-- A document of a formula with the type behind the sides, a value for a side of an
operand, and members of other keys. -/
def shuffledDocument : Json :=
  .object [("value", .string "OR"), ("note", .array [.null]),
    ("left", .object [("left", .bool true), ("value", .object [("value", .string "x"),
      ("operator", .string "="), ("condition", .string "a"), ("unit", .string "m")]),
      ("type", .string "operand")]),
    ("right", .array [.number (.integer 1), .null, .null,
      .array [.string "b", .string "~", .bool true]]),
    ("type", .string "operator")]

/-- The same document in the usual order. -/
def orderedDocument : Json :=
  .object [("type", .string "operator"),
    ("left", .object [("type", .string "operand"), ("left", .bool true),
      ("value", .object [("condition", .string "a"), ("operator", .string "="),
        ("value", .string "x")])]),
    ("right", .array [.number (.integer 1), .null, .null,
      .array [.string "b", .string "~", .bool true]]),
    ("value", .string "OR")]

/-- The shuffled document is read straight from its text, like the ordered one. -/
theorem ofText_shuffledDocument :
    ofText shuffledDocument.text = .ok (.join .or (.condition ⟨"a", .eq, .text "x"⟩)
        (.condition ⟨"b", .other "~", .truth true⟩)) ∧
      ofText orderedDocument.text = ofText shuffledDocument.text := by
  obtain ⟨hsorted, -, hessence⟩ := ofText_eq_ok_iff_ofDocument
  have hread : Json.read shuffledDocument.text = .ok shuffledDocument :=
    read_text (by decide) (by decide)
  have hread' : Json.read orderedDocument.text = .ok orderedDocument :=
    read_text (by decide) (by decide)
  have hshuffled : ofText shuffledDocument.text = .ok (.join .or
      (.condition ⟨"a", .eq, .text "x"⟩) (.condition ⟨"b", .other "~", .truth true⟩)) :=
    (hsorted _ _ _ hread (by decide)).mpr rfl
  refine ⟨hshuffled, Eq.trans ?_ hshuffled.symm⟩
  exact (hessence _ _ _ _ _ hread' hread (by decide) (by decide) rfl).mpr hshuffled

end Formula

end Rulebook
