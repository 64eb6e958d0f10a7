import Rulebook.Journal
import Rulebook.Json.Printer
import Rulebook.Text.Quoted

/-!
# The journal as lines

Each event of a journal becomes a line that tells the event and the spans
around it. There are two manners. For people a line is a text with colours,
and spans show only in the lines of the events inside them. For programs a
line is a document, and a span that is left has a line of its own, since only
then are all of its fields known.

What a line tells besides – when it was written, by which thread, how long a
span took – is no part of the journal and is given as a `Margin`.
-/

namespace Rulebook

/-- **How a journal is written.** -/
inductive Manner where
  /-- As texts with colours. -/
  | coloured
  /-- As documents. -/
  | documents
deriving DecidableEq

/-- **What a line tells besides its entry.** -/
structure Margin where
  /-- When the line is written. -/
  time : String
  /-- The thread that writes it. -/
  thread : String
  /-- For how long a span that is left was active. -/
  busy : String
  /-- For how long it was not. -/
  idle : String
deriving DecidableEq

/-- **A span that was entered.** -/
structure Span where
  /-- The part of the service that it is from. -/
  source : Source
  /-- Its name. -/
  name : String
  /-- Its fields, in the order in which they were set. -/
  fields : Fields
deriving DecidableEq

/-- The open spans after an entry, the innermost first. -/
def Entry.openSpans (spans : List Span) : Entry → List Span
  | .event _ _ _ _ => spans
  | .enter source name fields => ⟨source, name, fields⟩ :: spans
  | .note key value =>
    match spans with
    | span :: outer => { span with fields := span.fields ++ [(key, value)] } :: outer
    | [] => []
  | .leave => spans.tail

/-! ## Lines for people -/

/-- A text between the codes that set and reset how a terminal writes. -/
def painted (code text : String) : String :=
  "\x1b[" ++ code ++ "m" ++ text ++ "\x1b[0m"

/-- Bold. -/
def bold (text : String) : String := painted "1" text

/-- Dim. -/
def dimmed (text : String) : String := painted "2" text

/-- Slanted. -/
def slanted (text : String) : String := painted "3" text

/-- The colour of a level. -/
def Level.colour : Level → String
  | .error => "31"
  | .warn => "33"
  | .info => "32"
  | .debug => "34"
  | .trace => "35"

/-- The name of a level, five characters wide. -/
def Level.label (level : Level) : String :=
  match level with
  | .warn => " WARN"
  | .info => " INFO"
  | level => level.name

/-- Control characters in messages that a terminal obeys are spelled out. -/
def harmlessChar (c : Char) : List Char :=
  match c with
  | '\x1b' => ['\\', 'x', '1', 'b']
  | '\x07' => ['\\', 'x', '0', '7']
  | '\x08' => ['\\', 'x', '0', '8']
  | '\x0c' => ['\\', 'x', '0', 'c']
  | '\x7f' => ['\\', 'x', '7', 'f']
  | c =>
    if 0x80 ≤ c.toNat ∧ c.toNat ≤ 0x9F then
      ['\\', 'u', '\x7b'] ++ Nat.toDigits 16 c.toNat ++ ['\x7d']
    else [c]

/-- A message without characters that a terminal obeys. -/
def harmless (message : String) : String := String.ofList (message.toList.flatMap harmlessChar)

/-- The value of a field for people. -/
def FieldValue.text : FieldValue → String
  | .shown s => s
  | .quoted s => Rulebook.quoted s
  | .number n => toString n
  | .flag true => "true"
  | .flag false => "false"

/-- A field for people. -/
def fieldText (field : String × FieldValue) : String :=
  slanted field.1 ++ dimmed "=" ++ field.2.text

/-- A span for people: its name, and its fields in braces if it has any. -/
def Span.text (span : Span) : String :=
  let fields :=
    if span.fields.isEmpty then ""
    else bold "\x7b" ++ " ".intercalate (span.fields.map fieldText) ++ bold "\x7d"
  bold span.name ++ fields ++ dimmed ":"

/-- The spans around an event, from the outermost to the innermost. -/
def spansText (spans : List Span) : String :=
  if spans.isEmpty then "" else String.join (spans.reverse.map Span.text) ++ " "

/-- **An event for people.** -/
def eventText (margin : Margin) (spans : List Span) (level : Level) (source : Source)
    (message : String) (fields : Fields) : String :=
  dimmed margin.time ++ " " ++ painted level.colour level.label ++ " " ++ spansText spans
    ++ dimmed source.path ++ dimmed ":" ++ " " ++ harmless message
    ++ String.join (fields.map fun field => " " ++ fieldText field)

/-! ## Lines for programs -/

/-- The value of a field in a document. -/
def FieldValue.toDocument : FieldValue → Json
  | .shown s => .string s
  | .quoted s => .string s
  | .number n => .number (.integer n)
  | .flag b => .bool b

/-- Fields as the members of a document. -/
def fieldMembers (fields : Fields) : List (String × Json) :=
  fields.map fun field => (field.1, field.2.toDocument)

/-- A span in a document: its fields by name, and then its own name. -/
def Span.toDocument (span : Span) : Json :=
  .object ((Table.ofList (fieldMembers span.fields)).entries ++ [("name", .string span.name)])

/-- Spans in a document, from the outermost to the innermost. -/
def spansDocument (spans : List Span) : Json := .array (spans.reverse.map Span.toDocument)

/-- The members that tell the spans around an event; outside all spans there
are none. -/
def surroundingMembers (spans : List Span) : List (String × Json) :=
  match spans with
  | [] => []
  | span :: _ => [("span", span.toDocument), ("spans", spansDocument spans)]

/-- An event as a document, given the members that tell its spans. -/
def eventDocument (margin : Margin) (scope : List (String × Json)) (level : Level)
    (source : Source) (message : String) (fields : Fields) : Json :=
  .object
    ([("timestamp", .string margin.time), ("level", .string level.name),
        ("fields", .object (("message", .string message) :: fieldMembers fields)),
        ("target", .string source.path)]
      ++ scope ++ [("threadId", .string margin.thread)])

/-- **The end of a span as a document.** It tells the span itself and, apart
from it, the spans around. -/
def Span.closing (margin : Margin) (span : Span) (outer : List Span) : Json :=
  eventDocument margin [("span", span.toDocument), ("spans", spansDocument outer)] .info
    span.source "close" [("time.busy", .shown margin.busy), ("time.idle", .shown margin.idle)]

/-! ## All lines -/

/-- **The line of an entry** inside spans, if it has one. -/
def Entry.line? (manner : Manner) (margin : Margin) (spans : List Span) : Entry → Option String
  | .event level source message fields =>
    match manner with
    | .coloured => some (eventText margin spans level source message fields)
    | .documents =>
      some (eventDocument margin (surroundingMembers spans) level source message fields).text
  | .leave =>
    match manner, spans with
    | .documents, span :: outer => some (span.closing margin outer).text
    | _, _ => none
  | _ => none

/-- The lines of a journal that goes on inside spans. -/
def linesWithin (manner : Manner) (margin : Margin) : List Span → Journal → List String
  | _, [] => []
  | spans, entry :: rest =>
    (entry.line? manner margin spans).toList
      ++ linesWithin manner margin (entry.openSpans spans) rest

/-- **The lines of a journal.** -/
def Journal.lines (manner : Manner) (margin : Margin) (journal : Journal) : List String :=
  linesWithin manner margin [] journal

end Rulebook
