import Rulebook.Journal
import Rulebook.Number.Decimal
import Rulebook.Text.Blank

/-!
# What is shown of the journal

A filter is a row of directives between commas. A directive names a part of
the service, by the beginning of its path, and how much of what that part
writes is shown; a directive without a path is about all parts. Where several
directives are about one part, the one with the longest path governs, and of
two with the same path the later one. What no directive is about is not
shown.

A span that is not shown leaves what it encloses as it is: the events inside
are shown or not by themselves (`Filter.restrict`).
-/

namespace Rulebook

/-- **How much is shown.** -/
inductive Threshold where
  /-- Nothing. -/
  | off
  /-- A level and all that are more serious. -/
  | upTo (level : Level)
deriving DecidableEq

namespace Threshold

/-- Whether a level is shown. -/
def admits : Threshold → Level → Bool
  | .off, _ => false
  | .upTo most, level => level.rank ≤ most.rank

/-- The threshold that a number stands for. -/
def ofRank? : Nat → Option Threshold
  | 0 => some .off
  | 1 => some (.upTo .error)
  | 2 => some (.upTo .warn)
  | 3 => some (.upTo .info)
  | 4 => some (.upTo .debug)
  | 5 => some (.upTo .trace)
  | _ => none

/-- The threshold of a name, in any case. -/
def ofName? (text : List Char) : Option Threshold :=
  match String.ofList (lowerAscii text) with
  | "off" => some .off
  | "error" => some (.upTo .error)
  | "warn" => some (.upTo .warn)
  | "info" => some (.upTo .info)
  | "debug" => some (.upTo .debug)
  | "trace" => some (.upTo .trace)
  | _ => none

/-- **A threshold as it is written**: a name or a number. -/
def read? (text : List Char) : Option Threshold :=
  match (readNatural? (2 ^ (64 : Nat)) text).bind ofRank? with
  | some threshold => some threshold
  | none => ofName? text

end Threshold

/-! ## Directives -/

/-- **A directive**: how much is shown of some parts. -/
structure Directive where
  /-- How the paths of the parts begin, unless it is about all. -/
  target : Option String
  /-- How much is shown. -/
  threshold : Threshold
deriving DecidableEq

namespace Directive

/-- Whether a directive is about a part. -/
def concerns (d : Directive) (path : String) : Bool :=
  match d.target with
  | some target => target.toList.isPrefixOf path.toList
  | none => true

/-- The longer the path, the more specific is the directive; the least specific
one is about all parts. -/
def specificity (d : Directive) : Nat :=
  match d.target with
  | some target => target.length + 1
  | none => 0

/-- Whether a path can begin with a character. -/
def canBegin (c : Char) : Bool :=
  c.isAlphanum || 0x80 ≤ c.toNat || c = '-' || c = ':' || c = '_'

/-- What stands alone is a threshold, if it reads as one, and else a path of
which everything is shown. -/
def ofWord (word : List Char) : Directive :=
  match Threshold.read? word with
  | some threshold => ⟨none, threshold⟩
  | none => ⟨some (String.ofList word), .upTo .trace⟩

/-- What is shown of a path; nothing after the sign of equality means
everything. -/
def ofAssignment? (path threshold : List Char) : Option Directive :=
  let target := some (String.ofList path)
  if threshold.isEmpty then some ⟨target, .upTo .trace⟩
  else (Threshold.read? threshold).map fun t => ⟨target, t⟩

/-- **A directive as it is written**: a threshold, a path, or a path and a
threshold with a sign of equality between. A path holds no bracket. -/
def read? (text : List Char) : Option Directive :=
  let text := trim text
  let path := text.takeWhile fun c => c ≠ '='
  if !(text.head?.any canBegin) ∨ path.contains '[' then none
  else
    match text.dropWhile fun c => c ≠ '=' with
    | [] => some (ofWord path)
    | _ :: threshold => ofAssignment? path threshold

end Directive

/-! ## Filters -/

/-- **A filter**: its directives, in the order in which they are written. -/
structure Filter where
  /-- The directives. -/
  directives : List Directive
deriving DecidableEq

namespace Filter

/-- The filter that shows all parts alike. -/
def uniform (threshold : Threshold) : Filter := ⟨[⟨none, threshold⟩]⟩

/-- The pieces of a filter; empty ones say nothing. -/
def pieces (text : String) : List (List Char) :=
  (text.toList.splitOn ',').filter fun piece => !piece.isEmpty

/-- **A filter as it is written.** Where nothing is written, errors are shown;
one directive that is not well formed spoils the whole filter. -/
def ofText? (text : String) : Option Filter := do
  let directives ← (pieces text).mapM Directive.read?
  return if directives.isEmpty then uniform (.upTo .error) else ⟨directives⟩

/-- Of two directives about a part, the one that governs. -/
def prevailing (earlier : Option Directive) (later : Directive) : Option Directive :=
  match earlier with
  | some d => if later.specificity < d.specificity then some d else some later
  | none => some later

/-- **The directive that governs a part**, if there is one. -/
def governing? (f : Filter) (path : String) : Option Directive :=
  (f.directives.filter fun d => d.concerns path).foldl prevailing none

/-- **Whether something is shown**, by its level and the part it is from. -/
def shows (f : Filter) (level : Level) (source : Source) : Bool :=
  match f.governing? source.path with
  | some d => d.threshold.admits level
  | none => false

/-- **The filter that applies**: the wish of the environment, if it is well
formed, else the one of the settings, if it is, and else what is `info` or
more serious. -/
def choose (wish : Option String) (setting : String) : Filter :=
  match wish.bind ofText? with
  | some f => f
  | none => (ofText? setting).getD (uniform (.upTo .info))

/-- The entries that are shown, given for each open span, the innermost first,
whether it is. -/
def restrictFrom (f : Filter) : (spans : List Bool) → Journal → Journal
  | _, [] => []
  | spans, .event level source message fields :: rest =>
    if f.shows level source then
      .event level source message fields :: restrictFrom f spans rest
    else restrictFrom f spans rest
  | spans, .enter source name fields :: rest =>
    if f.shows .info source then .enter source name fields :: restrictFrom f (true :: spans) rest
    else restrictFrom f (false :: spans) rest
  | spans, .note key value :: rest =>
    if spans.head?.getD false then .note key value :: restrictFrom f spans rest
    else restrictFrom f spans rest
  | spans, .leave :: rest =>
    if spans.head?.getD false then .leave :: restrictFrom f spans.tail rest
    else restrictFrom f spans.tail rest

/-- **The part of a journal that is shown.** -/
def restrict (f : Filter) (journal : Journal) : Journal := restrictFrom f [] journal

end Filter

end Rulebook
