import Rulebook.Proofs.Number.Digits
import Rulebook.Proofs.Table
import Rulebook.Tally

/-!
# What the counters say

Counters are kept under the texts of their series, so two different things would be
counted together if their series were written alike. They are not: the values of labels
are escaped, so the end of each can be told (`labelText_append_inj`), and the name of a
series ends at its brace (`seriesName_text`). A counter therefore says how often its
tally was made (`counted_countSeries`), and all request counters together say how many
requests there were (`requestTotal_countSeries`).
-/

namespace Rulebook

/-! ## Counting -/

section Counting

variable {t : Table Nat} {key : String} {names : List String}

/-- A table with one more under a name. -/
def tick (t : Table Nat) (name : String) : Table Nat := t.insert name ((t.get? name).getD 0 + 1)

/-- **A name counts as often as it is ticked.** -/
theorem getD_get?_foldl_tick (names : List String) (t : Table Nat) (key : String) :
    ((names.foldl tick t).get? key).getD 0 = (t.get? key).getD 0 + names.count key := by
  induction names generalizing t with
  | nil => rfl
  | cons name names ih =>
    rw [List.foldl_cons, ih, tick, Table.get?_insert]
    by_cases hkey : name = key
    · subst hkey
      rw [if_pos rfl, List.count_cons_self, Option.getD_some]
      omega
    · rw [if_neg hkey, List.count_cons_of_ne hkey]

/-- The sum of what stands under keys of one kind. -/
def entryTotal (p : String → Bool) : List (String × Nat) → Nat
  | [] => 0
  | (key, n) :: entries => (if p key then n else 0) + entryTotal p entries

/-- A new value takes the place of the old one in the sum. -/
theorem entryTotal_insertEntry (p : String → Bool) (key : String) (value : Nat)
    {entries : List (String × Nat)} (h : entries.Pairwise (fun a b => a.1 < b.1)) :
    entryTotal p (insertEntry key value entries)
        + (if p key then (findEntry key entries).getD 0 else 0)
      = entryTotal p entries + if p key then value else 0 := by
  induction entries with
  | nil => simp [insertEntry, findEntry, entryTotal]
  | cons first entries ih =>
    obtain ⟨k, v⟩ := first
    rw [List.pairwise_cons] at h
    unfold insertEntry findEntry
    by_cases heq : key = k
    · subst heq
      rw [if_pos rfl, if_pos rfl, entryTotal, entryTotal, Option.getD_some]
      omega
    · rw [if_neg heq, if_neg (Ne.symm heq)]
      by_cases hlt : key < k
      · have hnone : findEntry key entries = none :=
          findEntry_eq_none fun e he => String.lt_trans hlt (h.1 e he)
        rw [if_pos hlt, hnone, entryTotal, Option.getD_none, ite_self]
        omega
      · have hrest := ih h.2
        rw [if_neg hlt, entryTotal, entryTotal]
        omega

/-- **All names of one kind together** count as often as one of them is ticked. -/
theorem entryTotal_foldl_tick (p : String → Bool) (names : List String) (t : Table Nat) :
    entryTotal p (names.foldl tick t).entries = entryTotal p t.entries + names.countP p := by
  induction names generalizing t with
  | nil => rfl
  | cons name names ih =>
    have hinsert := entryTotal_insertEntry p name ((t.get? name).getD 0 + 1) t.ascending
    have hget : (findEntry name t.entries).getD 0 = (t.get? name).getD 0 := rfl
    rw [List.foldl_cons, ih, List.countP_cons]
    show entryTotal p (insertEntry name _ t.entries) + _ = _
    by_cases hp : p name
    · rw [if_pos hp, if_pos hp, hget] at hinsert
      rw [if_pos hp]
      omega
    · rw [if_neg hp, if_neg hp] at hinsert
      rw [if_neg hp]
      omega

end Counting

/-! ## The texts of series -/

/-- What an escaped character begins with tells the character. -/
theorem labelChar_append_inj {c d : Char} {rest more : List Char}
    (h : labelChar c ++ rest = labelChar d ++ more) : c = d ∧ rest = more := by
  unfold labelChar at h
  -- a character that is not escaped is no backslash
  split at h <;> split at h <;> grind

/-- An escaped character does not begin with a quote. -/
theorem labelChar_append_ne {c : Char} {rest more : List Char} :
    labelChar c ++ rest ≠ '"' :: more := by
  unfold labelChar
  split <;> simp_all

/-- The quote behind an escaped value is told from the value. -/
theorem flatMap_labelChar_append_inj {value other rest more : List Char}
    (h : value.flatMap labelChar ++ '"' :: rest = other.flatMap labelChar ++ '"' :: more) :
    value = other ∧ rest = more := by
  induction value generalizing other with
  | nil =>
    cases other with
    | nil => exact ⟨rfl, List.cons_inj_right _ |>.mp h⟩
    | cons d other =>
      rw [List.flatMap_cons, List.append_assoc] at h
      exact (labelChar_append_ne h.symm).elim
  | cons c value ih =>
    cases other with
    | nil =>
      rw [List.flatMap_cons, List.append_assoc] at h
      exact (labelChar_append_ne h).elim
    | cons d other =>
      rw [List.flatMap_cons, List.flatMap_cons, List.append_assoc, List.append_assoc] at h
      obtain ⟨rfl, hvalue⟩ := labelChar_append_inj h
      obtain ⟨rfl, hrest⟩ := ih hvalue
      exact ⟨rfl, hrest⟩

/-- **The value of a label is told from its text**, whatever follows. -/
theorem labelText_append_inj {key value other : String} {rest more : List Char}
    (h : (labelText (key, value)).toList ++ rest = (labelText (key, other)).toList ++ more) :
    value = other ∧ rest = more := by
  simp only [labelText, String.toList_append, String.toList_ofList, List.append_assoc] at h
  have hvalue := List.append_cancel_left (List.append_cancel_left h)
  obtain ⟨hchars, hrest⟩ := flatMap_labelChar_append_inj hvalue
  exact ⟨String.toList_inj.mp hchars, hrest⟩

/-- The labels of a series between its braces, with the closing one. -/
def labelsChars (labels : List (String × String)) : List Char :=
  (",".intercalate (labels.map labelText)).toList ++ ['\x7d']

theorem labelsChars_singleton (label : String × String) :
    labelsChars [label] = (labelText label).toList ++ ['\x7d'] := by
  rw [labelsChars, List.map_singleton, String.intercalate_singleton]

theorem labelsChars_cons_cons (label next : String × String) (labels : List (String × String)) :
    labelsChars (label :: next :: labels)
      = (labelText label).toList ++ ',' :: labelsChars (next :: labels) := by
  simp [labelsChars]

/-- **The labels of a series are told from its text**, if it is known what they are
called. -/
theorem labelsChars_inj {labels others : List (String × String)}
    (hkeys : labels.map Prod.fst = others.map Prod.fst)
    (h : labelsChars labels = labelsChars others) : labels = others := by
  induction labels generalizing others with
  | nil =>
    cases others with
    | nil => rfl
    | cons other others => cases hkeys
  | cons label labels ih =>
    cases others with
    | nil => cases hkeys
    | cons other others =>
      obtain ⟨key, value⟩ := label
      obtain ⟨key', value'⟩ := other
      obtain ⟨hkey, hrest⟩ := List.cons_eq_cons.mp hkeys
      obtain rfl : key = key' := hkey
      cases labels with
      | nil =>
        obtain rfl : others = [] := List.map_eq_nil_iff.mp hrest.symm
        rw [labelsChars_singleton, labelsChars_singleton] at h
        rw [(labelText_append_inj h).1]
      | cons next labels =>
        cases others with
        | nil => cases hrest
        | cons next' others =>
          rw [labelsChars_cons_cons, labelsChars_cons_cons] at h
          obtain ⟨rfl, hchars⟩ := labelText_append_inj h
          rw [ih hrest (List.cons_eq_cons.mp hchars).2]

/-- The name of the series that a text is about: what stands before its brace. -/
def seriesName (text : String) : String :=
  String.ofList (text.toList.takeWhile fun c => c != '\x7b')

theorem Series.toList_text (series : Series) (ending : String) :
    (series.text ending).toList
      = (series.name ++ ending).toList ++ '\x7b' :: labelsChars series.labels := by
  simp [text, labelsChars]

/-- **A series is written under its name.** -/
theorem seriesName_text {series : Series} {ending : String}
    (h : '\x7b' ∉ (series.name ++ ending).toList) :
    seriesName (series.text ending) = series.name ++ ending := by
  have hplain : ∀ c ∈ (series.name ++ ending).toList, (c != '\x7b') = true :=
    fun c hc => bne_iff_ne.mpr (ne_of_mem_of_not_mem hc h)
  rw [seriesName, Series.toList_text, List.takeWhile_append_of_pos hplain]
  simp

/-- A name does not go on where the braces begin. -/
theorem Series.text_inj {series other : Series} {ending ending' : String}
    (hseries : '\x7b' ∉ (series.name ++ ending).toList)
    (hother : '\x7b' ∉ (other.name ++ ending').toList)
    (h : series.text ending = other.text ending') :
    series.name ++ ending = other.name ++ ending' ∧
      labelsChars series.labels = labelsChars other.labels := by
  have hname : series.name ++ ending = other.name ++ ending' := by
    rw [← seriesName_text hseries, ← seriesName_text hother, h]
  refine ⟨hname, ?_⟩
  have hchars := congrArg String.toList h
  rw [toList_text, toList_text, hname] at hchars
  exact (List.cons_eq_cons.mp (List.append_cancel_left hchars)).2

/-! ## Tallies -/

namespace Tally

/-- The name of a counter has no brace. -/
theorem counter_name_plain (t : Tally) : '\x7b' ∉ (t.counter.name ++ "").toList := by
  cases t with
  | request method path status =>
    show '\x7b' ∉ ("http_requests_total" ++ "").toList
    decide
  | compilation succeeded =>
    show '\x7b' ∉ ("rule_compilations_total" ++ "").toList
    decide
  | evaluation stored verdict =>
    show '\x7b' ∉ ("rule_evaluations_total" ++ "").toList
    decide
  | start service =>
    show '\x7b' ∉ ("service_starts_total" ++ "").toList
    decide

/-- Neither has the name under which durations are counted, and it is no counter's. -/
theorem durations_name_plain {t u : Tally} {series : Series} (h : t.durations = some series) :
    '\x7b' ∉ (series.name ++ "_count").toList ∧
      series.name ++ "_count" ≠ u.counter.name ++ "" := by
  cases t with
  | request method path status =>
    cases h
    refine ⟨?_, ?_⟩
    · show '\x7b' ∉ ("http_request_duration_seconds" ++ "_count").toList
      decide
    · cases u <;> simp [counter]
  | evaluation stored verdict =>
    cases h
    refine ⟨?_, ?_⟩
    · show '\x7b' ∉ ("rule_evaluation_duration_seconds" ++ "_count").toList
      decide
    · cases u <;> simp [counter]
  | compilation succeeded => cases h
  | start service => cases h

/-- Counters of one name have labels of the same keys. -/
theorem counter_keys {t u : Tally} (h : t.counter.name = u.counter.name) :
    t.counter.labels.map Prod.fst = u.counter.labels.map Prod.fst := by
  cases t <;> cases u <;> simp [counter] at h ⊢

theorem counter_inj {t u : Tally} (h : t.counter = u.counter) : t = u := by
  cases t with
  | request method path status =>
    cases u with
    | request method' path' status' =>
      simp only [counter, Series.mk.injEq, true_and, List.cons.injEq, Prod.mk.injEq, and_true] at h
      obtain ⟨rfl, rfl, hstatus⟩ := h
      have hdigits : status.repr.toList = status'.repr.toList := congrArg String.toList hstatus
      rw [Nat.toList_repr, Nat.toList_repr] at hdigits
      rw [← natOfDigits_toDigits status, ← natOfDigits_toDigits status', hdigits]
    | _ => simp [counter] at h
  | compilation succeeded =>
    cases u with
    | compilation succeeded' => revert h; revert succeeded succeeded'; decide
    | _ => simp [counter] at h
  | evaluation stored verdict =>
    cases u with
    | evaluation stored' verdict' => revert h; revert stored verdict stored' verdict'; decide
    | _ => simp [counter] at h
  | start service =>
    cases u with
    | start service' => simpa [counter] using h
    | _ => simp [counter] at h

/-- **Different tallies are counted apart.** -/
theorem counter_text_inj {t u : Tally} (h : t.counter.text "" = u.counter.text "") : t = u := by
  obtain ⟨hname, hlabels⟩ := Series.text_inj t.counter_name_plain u.counter_name_plain h
  rw [String.append_empty, String.append_empty] at hname
  refine counter_inj ?_
  have hlabels' := labelsChars_inj (counter_keys hname) hlabels
  generalize t.counter = series at hname hlabels'
  obtain ⟨name, labels⟩ := series
  subst hname hlabels'
  rfl

/-- Durations are not counted as a counter. -/
theorem durations_text_ne {t u : Tally} {series : Series} (h : t.durations = some series) :
    series.text "_count" ≠ u.counter.text "" := by
  obtain ⟨hplain, hne⟩ := durations_name_plain (u := u) h
  exact fun htext => hne (Series.text_inj hplain u.counter_name_plain htext).1

/-- A tally adds to its counter, and to another series if durations are kept. -/
theorem exists_series (t : Tally) : ∃ more, t.series = t.counter.text "" :: more ∧
    ∀ text ∈ more, ∃ series, t.durations = some series ∧ text = series.text "_count" := by
  cases h : t.durations with
  | none => exact ⟨[], by rw [series, h], by simp⟩
  | some series => exact ⟨[series.text "_count"], by rw [Tally.series, h], by simp⟩

/-- **A tally adds one to its own counter** and nothing to that of another. -/
theorem count_series (t u : Tally) :
    t.series.count (u.counter.text "") = if t = u then 1 else 0 := by
  obtain ⟨more, hseries, hmore⟩ := t.exists_series
  have hdurations : more.count (u.counter.text "") = 0 := by
    refine List.count_eq_zero.mpr fun hmem => ?_
    obtain ⟨series, h, htext⟩ := hmore _ hmem
    exact durations_text_ne h htext.symm
  rw [hseries, List.count_cons, hdurations, Nat.zero_add]
  by_cases h : t = u
  · rw [h, beq_self_eq_true, if_pos rfl, if_pos rfl]
  · rw [beq_eq_false_iff_ne.mpr (fun htext => h (counter_text_inj htext)), if_neg h]
    rfl

/-- Whether a tally is that of a request. -/
def isRequest : Tally → Bool
  | .request .. => true
  | _ => false

end Tally

/-- Whether a text is that of a request counter. -/
def isRequestCounter (text : String) : Bool := seriesName text == "http_requests_total"

/-- The tally of a request adds one to a request counter, and no other does. -/
theorem Tally.countP_series (t : Tally) :
    t.series.countP isRequestCounter = if t.isRequest then 1 else 0 := by
  obtain ⟨more, hseries, hmore⟩ := t.exists_series
  have hdurations : more.countP isRequestCounter = 0 := by
    refine List.countP_eq_zero.mpr fun text hmem => ?_
    obtain ⟨series, h, rfl⟩ := hmore text hmem
    obtain ⟨hplain, hne⟩ := durations_name_plain (u := .request "" "" 0) h
    rw [isRequestCounter, seriesName_text hplain, beq_iff_eq]
    exact hne
  have hname : isRequestCounter (t.counter.text "") = t.isRequest := by
    rw [isRequestCounter, seriesName_text t.counter_name_plain]
    cases t <;> rfl
  rw [hseries, List.countP_cons, hdurations, hname, Nat.zero_add]

/-! ## What is counted -/

/-- **What the counter of a tally says.** -/
def counted (counts : Table Nat) (t : Tally) : Nat := (counts.get? (t.counter.text "")).getD 0

/-- **What all request counters say together.** -/
def requestTotal (counts : Table Nat) : Nat := entryTotal isRequestCounter counts.entries

/-- **A counter says how often its tally was made.** -/
theorem counted_countSeries (tallies : List Tally) (t : Tally) :
    counted (countSeries tallies) t = tallies.count t := by
  have hticked : counted (countSeries tallies) t
      = 0 + (tallies.flatMap Tally.series).count (t.counter.text "") :=
    getD_get?_foldl_tick _ _ _
  rw [hticked, Nat.zero_add]
  clear hticked
  induction tallies with
  | nil => rfl
  | cons first tallies ih =>
    rw [List.flatMap_cons, List.count_append, first.count_series, ih, List.count_cons, Nat.add_comm]
    simp only [beq_iff_eq]

/-- **The request counters together say how many requests there were.** -/
theorem requestTotal_countSeries (tallies : List Tally) :
    requestTotal (countSeries tallies) = tallies.countP Tally.isRequest := by
  have hticked : requestTotal (countSeries tallies)
      = 0 + (tallies.flatMap Tally.series).countP isRequestCounter :=
    entryTotal_foldl_tick _ _ _
  rw [hticked, Nat.zero_add]
  clear hticked
  induction tallies with
  | nil => rfl
  | cons first tallies ih =>
    rw [List.flatMap_cons, List.countP_append, first.countP_series, ih, List.countP_cons,
      Nat.add_comm]

end Rulebook
