import Mathlib.Data.List.Induction
import Rulebook.Settings.Value

/-!
# Layers of settings

Layers are laid over one another, the later over the earlier. What stands under a key in
the end was given under that key by some layer, and to find it one looks from the last
layer back to the first. Outside of all sections the first thing found counts
(`findEntry_joined`, `alike_laidAll`).

Inside a section there is more to see, since a section can be given as something else
than a table. A table is joined with what was there, key by key; anything else takes the
place of what was there, and a table laid over that begins anew. So the search for a
setting in a section goes through tables only and ends where the section was given as
something else (`lastInTables`). A row, which gives settings by their places, counts only
if no table was laid over it (`lastTold`). What is given for one of its places alone is laid
over that place (`rowTold`), and the other places stay as they are
(`getElem?_withPlace_of_ne`). `member_section` says that this search finds what stands in
the section, and `lastTold_of_isTable` that it is the plain search where a section is only
given as a table.

A setting that is given as a table or for its places is joined, too, and what stands there
is then not what was given last. Such a setting is of no use, as no conversion takes what
holds other settings; all statements here are up to what it holds (`Alike`).
-/

namespace Rulebook

namespace Setting

/-! ## What is given -/

/-- Whether a setting is a table. -/
def isTable : Setting → Bool
  | .table _ => true
  | _ => false

/-- Whether a setting holds other settings. -/
def isGroup : Setting → Bool
  | .array _ | .table _ | .place _ _ => true
  | _ => false

/-- What is given under a key by entries, in their order. -/
def givenUnder (key : String) (entries : List (String × Setting)) : List Setting :=
  entries.filterMap fun e => if e.1 = key then some e.2 else none

/-- **What layers give under a key**, those of the first layer first. -/
def given (layers : List (List (String × Setting))) (key : String) : List Setting :=
  layers.flatMap fun layer => givenUnder key (rooted layer)

/-- The setting under a key that was given last, where something else than a table ends the
search. What was given last comes first. -/
def lastInTables (key : String) : (latest : List Setting) → Option Setting
  | .table new :: earlier => (givenUnder key new).getLast?.or (lastInTables key earlier)
  | _ => none

/-- **The row that was told**: the last row, with what was given since then laid over single
places of it. Where something else was given, a row begins anew. -/
def rowTold : (latest : List Setting) → List Setting
  | .array items :: _ => items
  | .place index item :: earlier =>
    withPlace (rowTold earlier) index fun before => laidOver before item
  | _ => []

/-- **What was last told about a setting of a section**, by its key and its place, from what
was given for the section, the last of it first. -/
def lastTold (key : String) (place : Nat) : (latest : List Setting) → Option Setting
  | .array items :: _ => items[place]?
  | .place index item :: earlier => (rowTold (.place index item :: earlier))[place]?
  | latest => lastInTables key latest

/-- The setting under a key that a table gave last, whatever else was given. -/
def lastOfTables (key : String) (values : List Setting) : Option Setting :=
  (givenUnder key (values.flatMap entries)).getLast?

theorem givenUnder_cons_self (key : String) (value : Setting) (more : List (String × Setting)) :
    givenUnder key ((key, value) :: more) = value :: givenUnder key more :=
  List.filterMap_cons_some (if_pos rfl)

theorem givenUnder_cons_of_ne {key other : String} (h : other ≠ key) (value : Setting)
    (more : List (String × Setting)) :
    givenUnder key ((other, value) :: more) = givenUnder key more :=
  List.filterMap_cons_none (if_neg h)

theorem givenUnder_flatMap_rooted (layers : List (List (String × Setting))) (key : String) :
    givenUnder key (layers.flatMap rooted) = given layers key :=
  List.filterMap_flatMap

theorem eq_table_of_isTable {setting : Setting} (h : setting.isTable) :
    setting = .table setting.entries := by
  cases setting with
  | table entries => rfl
  | _ => cases h

/-! ## Alike -/

/-- That a conversion takes nothing that holds other settings. -/
def RefusesGroups {α : Type} (convert : Setting → Option α) : Prop :=
  ∀ setting, setting.isGroup → convert setting = none

theorem refusesGroups_asText? : RefusesGroups asText? := by
  intro setting hgroup
  cases setting <;> first | rfl | cases hgroup

theorem refusesGroups_asTruth? : RefusesGroups asTruth? := by
  intro setting hgroup
  cases setting <;> first | rfl | cases hgroup

theorem refusesGroups_asPort? : RefusesGroups asPort? := by
  intro setting hgroup
  cases setting <;> first | rfl | cases hgroup

/-- **Two answers that are alike**: they are the same, or both hold other settings. -/
def Alike (a b : Option Setting) : Prop :=
  a = b ∨ (∃ group, a = some group ∧ group.isGroup) ∧ ∃ group, b = some group ∧ group.isGroup

theorem Alike.refl (a : Option Setting) : Alike a a := .inl rfl

/-- A conversion that takes no group does not tell apart what is alike. -/
theorem Alike.elim_eq {α : Type} {convert : Setting → Option α} (hgroup : RefusesGroups convert)
    {a b : Option Setting} (h : Alike a b) (default : Option α) :
    a.elim default convert = b.elim default convert := by
  obtain rfl | ⟨⟨group, rfl, ha⟩, ⟨group', rfl, hb⟩⟩ := h
  · rfl
  · rw [Option.elim_some, Option.elim_some, hgroup group ha, hgroup group' hb]

/-! ## Rows -/

theorem withPlace_natCast (row : List Setting) (place : Nat) (lay : Option Setting → Setting) :
    withPlace row place lay
      = (row ++ List.replicate (place + 1 - row.length) nothing).set place
          (lay (row ++ List.replicate (place + 1 - row.length) nothing)[place]?) := by
  have hbefore : (-(place : Int) - row.length).toNat = 0 := by omega
  have hplace : ¬ (place : Int) < 0 := by omega
  rw [withPlace, hbefore, List.replicate_zero, List.nil_append, if_neg hplace, Int.toNat_natCast]

/-- What is given for a place is laid over what stands there, and over nothing if the row was
too short. -/
theorem getElem?_withPlace_self (row : List Setting) (place : Nat)
    (lay : Option Setting → Setting) :
    (withPlace row place lay)[place]? = some (lay (some (row[place]?.getD nothing))) := by
  rw [withPlace_natCast, List.getElem?_set_self (by simp; omega), List.getElem?_append]
  split
  · rename_i h
    rw [List.getElem?_eq_getElem h, Option.getD_some]
  · rename_i h
    rw [List.getElem?_replicate_of_lt (by omega), List.getElem?_eq_none (Nat.le_of_not_lt h),
      Option.getD_none]

/-- **The other places of a row stay as they are.** -/
theorem getElem?_withPlace_of_ne {row : List Setting} {place other : Nat} (hne : other ≠ place)
    (hother : other < row.length) (lay : Option Setting → Setting) :
    (withPlace row place lay)[other]? = row[other]? := by
  rw [withPlace_natCast, List.getElem?_set_ne hne.symm, List.getElem?_append_left hother]

/-! ## Laying over -/

/-- What is there after several settings were laid over one another. -/
def laidAll (before : Option Setting) (values : List Setting) : Option Setting :=
  values.foldl (fun before value => some (laidOver before value)) before

theorem laidAll_append (before : Option Setting) (values more : List Setting) :
    laidAll before (values ++ more) = laidAll (laidAll before values) more :=
  List.foldl_append

theorem laidAll_eq_none {values : List Setting} : laidAll none values = none ↔ values = [] := by
  induction values using List.reverseRecOn with
  | nil => exact ⟨fun _ => rfl, fun _ => rfl⟩
  | append_singleton values value _ =>
    rw [laidAll_append]
    exact ⟨nofun, fun h => absurd h (List.concat_ne_nil value values)⟩

theorem joined_append (old new more : List (String × Setting)) :
    joined old (new ++ more) = joined (joined old new) more := by
  induction new generalizing old with
  | nil => rfl
  | cons e new ih => exact ih _

/-- **All layers are laid over as one.** -/
theorem foldl_overlayLayer_eq (old : List (String × Setting))
    (layers : List (List (String × Setting))) :
    layers.foldl overlayLayer (.table old) = .table (joined old (layers.flatMap rooted)) := by
  induction layers generalizing old with
  | nil => rfl
  | cons layer layers ih =>
    rw [List.foldl_cons, overlayLayer, ih, entries, List.flatMap_cons, joined_append]

/-- **What stands under a key** is what was there with all that is given under the key laid
over it. -/
theorem findEntry_joined (old new : List (String × Setting)) (key : String) :
    findEntry key (joined old new) = laidAll (findEntry key old) (givenUnder key new) := by
  induction new generalizing old with
  | nil => rfl
  | cons e new ih =>
    obtain ⟨other, value⟩ := e
    rw [joined, ih, findEntry_insertEntry]
    by_cases h : other = key
    · subst h
      rw [if_pos rfl, givenUnder_cons_self]
      rfl
    · rw [if_neg h, givenUnder_cons_of_ne h]

/-- What was given last is what is there in the end. -/
theorem alike_laidAll {before told : Option Setting} (h : Alike before told)
    (values : List Setting) : Alike (laidAll before values) (values.getLast?.or told) := by
  induction values using List.reverseRecOn with
  | nil => exact h
  | append_singleton values value _ =>
    rw [laidAll_append, List.getLast?_concat, Option.some_or]
    cases value with
    | table new => exact .inr ⟨⟨_, rfl, rfl⟩, _, rfl, rfl⟩
    | place index item => exact .inr ⟨⟨_, rfl, rfl⟩, _, rfl, rfl⟩
    | _ => exact .inl rfl

/-! ## Sections -/

/-- What stands under a key of a section, if the section is a table, is what tables gave
last. -/
theorem alike_lastInTables (values : List Setting) (key : String) :
    Alike (findEntry key (((laidAll none values).map entries).getD []))
      (lastInTables key values.reverse) := by
  induction values using List.reverseRecOn with
  | nil => exact .refl none
  | append_singleton values value ih =>
    rw [laidAll_append, List.reverse_append, List.reverse_singleton]
    cases value with
    | table new =>
      show Alike (findEntry key (joined (((laidAll none values).map entries).getD []) new)) _
      rw [findEntry_joined]
      exact alike_laidAll ih (givenUnder key new)
    | _ => exact .refl none

/-- The row that stands in a section, if the section is a row, is the row that was told. -/
theorem items_laidAll (values : List Setting) :
    ((laidAll none values).map items).getD [] = rowTold values.reverse := by
  induction values using List.reverseRecOn with
  | nil => rfl
  | append_singleton values value ih =>
    rw [laidAll_append, List.reverse_append, List.reverse_singleton]
    cases value with
    | place index item =>
      have hlaid : laidAll (laidAll none values) [.place index item]
          = some (laidOver (laidAll none values) (.place index item)) := rfl
      rw [hlaid, Option.map_some, Option.getD_some, laidOver, items, ih]
      rfl
    | _ => rfl

/-- **What stands in a section** that has members is what was last told about it. -/
theorem member_section {values : List Setting} {group : Setting} {key : String} {place : Nat}
    {member : Option Setting} (hgroup : laidAll none values = some group)
    (hmember : group.member? key place = some member) :
    Alike member (lastTold key place values.reverse) := by
  have htables := alike_lastInTables values key
  have hrow := items_laidAll values
  rw [hgroup] at htables hrow
  induction values using List.reverseRecOn with
  | nil => cases hgroup
  | append_singleton values value _ =>
    rw [laidAll_append] at hgroup
    cases hgroup
    rw [List.reverse_append, List.reverse_singleton] at htables hrow ⊢
    cases value with
    | table new =>
      cases hmember
      exact htables
    | array items =>
      cases hmember
      exact .refl _
    | place index item =>
      cases hmember
      exact .inl (congrArg (·[place]?) hrow)
    | _ => cases hmember

/-- Where only tables are given for a section, a setting is simply the last one that a table
gave. -/
theorem lastTold_of_isTable {values : List Setting} (h : ∀ value ∈ values, value.isTable)
    (key : String) (place : Nat) :
    lastTold key place values.reverse = lastOfTables key values := by
  induction values using List.reverseRecOn with
  | nil => rfl
  | append_singleton values value ih =>
    have hbefore : ∀ value ∈ values, value.isTable :=
      fun other hmem => h other (List.mem_append_left [value] hmem)
    have htables : lastInTables key values.reverse = lastOfTables key values := by
      rw [← ih hbefore]
      cases hreverse : values.reverse with
      | nil => rfl
      | cons last earlier =>
        have hlast := eq_table_of_isTable
          (hbefore last (List.mem_reverse.mp (hreverse ▸ List.mem_cons_self)))
        rw [hlast]
        rfl
    rw [List.reverse_append, List.reverse_singleton,
      eq_table_of_isTable (h value (List.mem_append_right values List.mem_cons_self))]
    show (givenUnder key value.entries).getLast?.or (lastInTables key values.reverse) = _
    rw [htables, lastOfTables, lastOfTables, List.flatMap_append, List.flatMap_singleton,
      givenUnder, givenUnder, givenUnder, List.filterMap_append, List.getLast?_append]
    rfl

end Setting

end Rulebook
