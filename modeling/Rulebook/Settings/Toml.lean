import Rulebook.Settings.Toml.Scalar
import Rulebook.Settings.Toml.Text

/-!
# Reading TOML

A file of settings is a row of lines: a key with its value, or a header that
says to which table the lines below it belong. A table may be opened once, be
it by a header or by keys with points, and a key may be given once.

While a file is read its tables are kept as `Node`s, which remember how they
came about; `Toml.read?` forgets that in the end.
-/

namespace Rulebook

namespace Toml

/-- **How a table came about.** -/
inductive Opening where
  /-- It is named in the header of a table inside it. -/
  | implied
  /-- It has a header of its own. -/
  | header
  /-- It is named in a key with points. -/
  | dotted
deriving DecidableEq

/-- **What stands under a key** while a file is read. -/
inductive Node where
  /-- A value, to which nothing can be added. -/
  | leaf (value : Setting)
  /-- A table. -/
  | table (opening : Opening) (entries : List (String × Node))
  /-- A row of tables, the last one first. -/
  | rows (tables : List (List (String × Node)))

mutual

/-- The setting of a node. -/
def Node.setting : Node → Setting
  | .leaf value => value
  | .table _ entries => .table (settingsOf entries)
  | .rows tables => .array (settingsOfRows [] tables)

/-- The settings of the entries of a table. -/
def settingsOf : List (String × Node) → List (String × Setting)
  | [] => []
  | (key, node) :: entries => (key, node.setting) :: settingsOf entries

/-- The settings of a row of tables, the last of which comes first. -/
def settingsOfRows (done : List Setting) : List (List (String × Node)) → List Setting
  | [] => done
  | entries :: tables => settingsOfRows (.table (settingsOf entries) :: done) tables

end

/-- The entries of a table that is being read. -/
abbrev Entries := List (String × Node)

/-- **A value put under a key with points.** The tables between come about by
this key or by one like it; a table with a header of its own is closed. -/
def putDotted (value : Setting) : (path : List String) → Entries → Option Entries
  | [], _ => none
  | [key], entries =>
    if (findEntry key entries).isSome then none
    else some (insertEntry key (.leaf value) entries)
  | key :: path, entries =>
    match findEntry key entries with
    | none => do return insertEntry key (.table .dotted (← putDotted value path [])) entries
    | some (.table .header _) => none
    | some (.table opening inner) => do
      return insertEntry key (.table opening (← putDotted value path inner)) entries
    | some _ => none

/-- The entries changed inside the table that a header names; of a row of
tables the last one is meant. -/
def changeAt (change : Entries → Option Entries) :
    (path : List String) → Entries → Option Entries
  | [], entries => change entries
  | key :: path, entries =>
    match findEntry key entries with
    | none => do return insertEntry key (.table .implied (← changeAt change path [])) entries
    | some (.table opening inner) => do
      return insertEntry key (.table opening (← changeAt change path inner)) entries
    | some (.rows (last :: before)) => do
      return insertEntry key (.rows ((← changeAt change path last) :: before)) entries
    | some _ => none

/-- A table opened by its header. -/
def openTable (key : String) (entries : Entries) : Option Entries :=
  match findEntry key entries with
  | none => some (insertEntry key (.table .header []) entries)
  | some (.table .implied inner) => some (insertEntry key (.table .header inner) entries)
  | some _ => none

/-- One more table of a row, opened by its header. -/
def openRow (key : String) (entries : Entries) : Option Entries :=
  match findEntry key entries with
  | none => some (insertEntry key (.rows [[]]) entries)
  | some (.rows tables) => some (insertEntry key (.rows ([] :: tables)) entries)
  | some _ => none

/-! ## Values -/

/-- The rest of a text behind a comment. -/
def skipComment (text : List Char) : Option (List Char) :=
  match text with
  | '#' :: text =>
    let comment := text.takeWhile isPlainChar
    let rest := text.drop comment.length
    if rest.isEmpty ∨ (newline? rest).isSome then some rest else none
  | text => some text

/-- The rest of a text behind spaces, comments and ends of lines. -/
def skipFiller : (fuel : Nat) → List Char → Option (List Char)
  | 0, _ => none
  | fuel + 1, text => do
    let text ← skipComment (skipSpaces text)
    match newline? text with
    | some rest => skipFiller fuel rest
    | none => return text

/-- The items of a row behind its opening bracket. -/
def rowItems (value : List Char → Option (Setting × List Char)) :
    (fuel : Nat) → (read : List Setting) → List Char → Option (List Setting × List Char)
  | 0, _, _ => none
  | fuel + 1, read, text => do
    match ← skipFiller (text.length + 1) text with
    | ']' :: rest => return (read.reverse, rest)
    | text => do
      let (item, rest) ← value text
      match ← skipFiller (rest.length + 1) rest with
      | ']' :: rest => return ((item :: read).reverse, rest)
      | ',' :: rest => rowItems value fuel (item :: read) rest
      | _ => none

/-- A key with its value. -/
def readPair (value : List Char → Option (Setting × List Char)) (text : List Char) :
    Option (List String × Setting × List Char) := do
  let (path, rest) ← readPath? (text.length + 1) text
  match rest with
  | '=' :: rest => do
    let (x, rest) ← value (skipSpaces rest)
    return (path, x, rest)
  | _ => none

/-- The members of a table on one line, behind its opening brace and behind the
first member. -/
def inlineMembers (value : List Char → Option (Setting × List Char)) :
    (fuel : Nat) → Entries → List Char → Option (Entries × List Char)
  | 0, _, _ => none
  | fuel + 1, entries, text => do
    let (path, x, rest) ← readPair value (skipSpaces text)
    let entries ← putDotted x path entries
    match skipSpaces rest with
    | '\x7d' :: rest => return (entries, rest)
    | ',' :: rest => inlineMembers value fuel entries rest
    | _ => none

/-- **A value**, with at most `depth` rows and tables inside one another. -/
def readValue : (depth : Nat) → List Char → Option (Setting × List Char)
  | 0, _ => none
  | depth + 1, text =>
    match readText? text with
    | some found => found.map fun (s, rest) => (.text s, rest)
    | none =>
      match text with
      | '[' :: rest => do
        let (items, rest) ← rowItems (readValue depth) (rest.length + 1) [] rest
        return (.array items, rest)
      | '\x7b' :: rest =>
        match skipSpaces rest with
        | '\x7d' :: rest => some (.table [], rest)
        | rest => do
          let (entries, rest) ← inlineMembers (readValue depth) (rest.length + 1) [] rest
          return (.table (settingsOf entries), rest)
      | text => do
        let (word, rest) := takeWord text
        return (← wordValue? word, rest)

/-! ## Files -/

/-- The rest of a file behind the end of a line. -/
def endLine? (text : List Char) : Option (List Char) := do
  let text ← skipComment (skipSpaces text)
  if text.isEmpty then return [] else newline? text

/-- The path of a header behind its opening, up to its closing. -/
def headerPath? (closing : List Char) (text : List Char) :
    Option (List String × List Char) := do
  let (path, rest) ← readPath? (text.length + 1) (skipSpaces text)
  if closing.isPrefixOf rest then return (path, ← endLine? (rest.drop closing.length)) else none

/-- A header taken into account: the last key of its path is opened. -/
def openAt (open_ : String → Entries → Option Entries) (path : List String)
    (entries : Entries) : Option Entries := do
  changeAt (open_ (← path.getLast?)) path.dropLast entries

/-- The lines of a file, where the lines read last belong to the table at
`current`. Each line shortens what is left. -/
def readLinesOf :
    (fuel : Nat) → (current : List String) → Entries → List Char → Option Entries
  | 0, _, _, _ => none
  | fuel + 1, current, entries, text => do
    match ← skipFiller (text.length + 1) text with
    | [] => return entries
    | '[' :: '[' :: rest => do
      let (path, rest) ← headerPath? [']', ']'] rest
      readLinesOf fuel path (← openAt openRow path entries) rest
    | '[' :: rest => do
      let (path, rest) ← headerPath? [']'] rest
      readLinesOf fuel path (← openAt openTable path entries) rest
    | text => do
      let (path, x, rest) ← readPair (readValue text.length) text
      let entries ← changeAt (putDotted x path) current entries
      readLinesOf fuel current entries (← endLine? rest)

/-- **The settings of a file**, if it is well formed. A byte order mark at its
start does not count. -/
def read? (file : String) : Option (List (String × Setting)) :=
  let text :=
    match file.toList with
    | '\ufeff' :: text => text
    | text => text
  (readLinesOf (text.length + 1) [] [] text).map settingsOf

end Toml

end Rulebook
