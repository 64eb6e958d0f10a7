import Rulebook.Proofs.RuleStorage
import Rulebook.Proofs.Table

/-!
# The rules of a store

A store keeps documents, but it is asked for rules. The **shelf** of a store is the
table of the rules that its documents tell, and `Store.Keeps` says that a store has
such a shelf: each document is that of a rule on the shelf, lies under the id of that
rule, and is read as that rule again.

A new store has an empty shelf, and what is done to the store is done to the shelf
(`Store.Keeps.save`, `Store.Keeps.delete`). A store with a shelf never fails: it finds
what stands on the shelf (`Store.Keeps.find`) and lists all of it
(`Store.Keeps.list`), every rule once and in the order of creation.
-/

namespace Rulebook

/-! ## The order of creation -/

namespace Instant

/-- Points in time are ordered by their fields, one after the other. -/
theorem order_eq_compareLex :
    order = compareLex (compareOn year) (compareLex (compareOn month)
      (compareLex (compareOn day) (compareLex (compareOn hour) (compareLex (compareOn minute)
        (compareLex (compareOn second) (compareOn nano)))))) :=
  rfl

instance : Std.TransCmp order := by
  rw [order_eq_compareLex]
  infer_instance

theorem notAfter_trans {a b c : Instant} (hab : a.notAfter b) (hbc : b.notAfter c) :
    a.notAfter c :=
  Std.TransCmp.isLE_trans hab hbc

theorem notAfter_total (a b : Instant) : (a.notAfter b || b.notAfter a) = true := by
  have hswap : b.order a = (a.order b).swap := Std.OrientedCmp.eq_swap
  unfold notAfter
  rw [hswap]
  cases a.order b <;> rfl

end Instant

/-! ## Shelves -/

/-- **A shelf**: rules under ids. -/
abbrev Shelf := Table Rule

namespace Shelf

/-- The rules on a shelf in the order of their creation. -/
def rules (shelf : Shelf) : List Rule :=
  (shelf.entries.map Prod.snd).mergeSort fun a b => a.createdAt.notAfter b.createdAt

theorem perm_rules (shelf : Shelf) : shelf.rules.Perm (shelf.entries.map Prod.snd) :=
  List.mergeSort_perm _ _

theorem pairwise_rules (shelf : Shelf) :
    shelf.rules.Pairwise fun a b => a.createdAt.notAfter b.createdAt := by
  have htrans (a b c : Rule) : a.createdAt.notAfter b.createdAt → b.createdAt.notAfter c.createdAt →
      a.createdAt.notAfter c.createdAt := Instant.notAfter_trans
  have htotal (a b : Rule) :
      (a.createdAt.notAfter b.createdAt || b.createdAt.notAfter a.createdAt) = true :=
    Instant.notAfter_total a.createdAt b.createdAt
  exact List.pairwise_mergeSort htrans htotal _

@[simp]
theorem length_rules (shelf : Shelf) : shelf.rules.length = shelf.size := by
  rw [shelf.perm_rules.length_eq, List.length_map, Table.size]

end Shelf

namespace Store

/-- **A store keeps the rules of a shelf** as documents. -/
structure Keeps (store : Store) (shelf : Shelf) : Prop where
  /-- What is kept are the documents of the rules. -/
  documents : store = shelf.map fun rule => rule.toDocument.sorted
  /-- A rule stands under its own id. -/
  own : ∀ {id : String} {rule : Rule}, shelf.get? id = some rule → rule.id = id
  /-- The document of a rule tells the rule. -/
  readable : ∀ {id : String} {rule : Rule}, shelf.get? id = some rule →
    Rule.ofDocument epoch rule.toDocument.sorted = .ok rule

/-- Documents that tell their rules are read one after the other. -/
theorem mapM_decode {entries : List (String × Rule)}
    (h : ∀ e ∈ entries, decode e.1 e.2.toDocument.sorted = .ok e.2) :
    (entries.map fun e => (e.1, e.2.toDocument.sorted)).mapM (fun e => decode e.1 e.2)
      = .ok (entries.map Prod.snd) := by
  induction entries with
  | nil => rfl
  | cons first entries ih =>
    rw [List.map_cons, List.mapM_cons, h first List.mem_cons_self,
      ih fun e he => h e (List.mem_cons_of_mem _ he)]
    rfl

theorem keeps_empty : Keeps .empty .empty where
  documents := rfl
  own h := by cases h
  readable h := by cases h

namespace Keeps

variable {store : Store} {shelf : Shelf}

/-- **A rule that is saved is put on the shelf** in its normal form. -/
theorem save (h : store.Keeps shelf) {rule : Rule} (hclock : rule.createdAt.isReal) :
    (store.save rule).Keeps (shelf.insert rule.id rule.normal) where
  documents := by
    rw [Store.save, h.documents, Table.map_insert, Rule.toDocument_normal]
  own := by
    intro id other hother
    rw [Table.get?_insert] at hother
    split at hother
    · rename_i hid
      cases hother
      exact hid
    · exact h.own hother
  readable := by
    intro id other hother
    rw [Table.get?_insert] at hother
    split at hother
    · cases hother
      rw [Rule.toDocument_normal]
      exact Rule.ofDocument_sorted hclock epoch
    · exact h.readable hother

/-- **A rule that is deleted is taken off the shelf.** -/
theorem delete (h : store.Keeps shelf) (id : String) : (store.delete id).Keeps (shelf.erase id) := by
  have hleft {other : String} {rule : Rule} (hother : (shelf.erase id).get? other = some rule) :
      shelf.get? other = some rule := by
    rw [Table.get?_erase] at hother
    split at hother
    · cases hother
    · exact hother
  exact ⟨by rw [Store.delete, h.documents, Table.map_erase], fun hother => h.own (hleft hother),
    fun hother => h.readable (hleft hother)⟩

theorem size_eq (h : store.Keeps shelf) : store.size = shelf.size := by
  rw [h.documents, Table.size_map]

theorem has_eq (h : store.Keeps shelf) (id : String) : store.has id = (shelf.get? id).isSome := by
  rw [has, h.documents, Table.get?_map, Option.isSome_map]

/-- The document of a rule on the shelf is read as that rule. -/
theorem decode_eq (h : store.Keeps shelf) {id : String} {rule : Rule}
    (hrule : shelf.get? id = some rule) : decode id rule.toDocument.sorted = .ok rule := by
  rw [decode, h.readable hrule]

/-- **What is found is what stands on the shelf.** -/
theorem find (h : store.Keeps shelf) (id : String) : store.find id = .ok (shelf.get? id) := by
  unfold Store.find
  rw [h.documents, Table.get?_map]
  cases hrule : shelf.get? id with
  | none => rfl
  | some rule =>
    show (decode id rule.toDocument.sorted).map some = _
    rw [h.decode_eq hrule]
    rfl

/-- **What is listed is what stands on the shelf.** -/
theorem list (h : store.Keeps shelf) : store.list = .ok shelf.rules := by
  unfold Store.list
  rw [h.documents]
  show ((shelf.entries.map fun e => (e.1, e.2.toDocument.sorted)).mapM _ >>= _) = _
  rw [mapM_decode fun e he => h.decode_eq (Table.get?_eq_some_iff.mpr he)]
  rfl

/-- **The rules that are listed are those that are found.** -/
theorem mem_rules_iff (h : store.Keeps shelf) (rule : Rule) :
    rule ∈ shelf.rules ↔ shelf.get? rule.id = some rule := by
  rw [shelf.perm_rules.mem_iff, List.mem_map, Table.get?_eq_some_iff]
  constructor
  · rintro ⟨⟨id, rule⟩, hmem, rfl⟩
    cases h.own (Table.get?_eq_some_iff.mpr hmem)
    exact hmem
  · exact fun hmem => ⟨_, hmem, rfl⟩

/-- **No rule is listed twice.** -/
theorem nodup_rules (h : store.Keeps shelf) : (shelf.rules.map Rule.id).Nodup := by
  have hids : (shelf.entries.map Prod.snd).map Rule.id = shelf.entries.map Prod.fst := by
    rw [List.map_map]
    exact List.map_congr_left fun e he => h.own (Table.get?_eq_some_iff.mpr he)
  rw [(shelf.perm_rules.map Rule.id).nodup_iff, hids]
  exact shelf.nodup_keys

end Keeps

end Store

end Rulebook
