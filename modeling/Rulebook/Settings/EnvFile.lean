import Rulebook.Table
import Rulebook.Text.Blank

/-!
# Files of environment variables

A file of environment variables is a row of lines `NAME=value`, perhaps with
`export` before the name. A value can stand in quotes and then go over several
lines; outside of quotes it ends at a blank, behind which only a comment may
follow. `$NAME` and `${NAME}` stand for the value of a variable, except in
single quotes.

The file is taken line by line, and the first line that is not well formed
ends it: the lines before it count. A variable that has a value keeps it.
-/

namespace Rulebook

namespace EnvFile

/-! ## Lines -/

/-- Where a reader stands who looks for the end of a value. -/
inductive LineState where
  /-- Outside of quotes. -/
  | complete
  /-- Behind a backslash. -/
  | escape
  /-- In single quotes. -/
  | strong
  /-- In single quotes, behind a backslash. -/
  | strongEscape
  /-- In double quotes. -/
  | weak
  /-- In double quotes, behind a backslash. -/
  | weakEscape
  /-- In a comment. -/
  | comment
  /-- Behind a blank. -/
  | blank
deriving DecidableEq

/-- The state behind one more character. -/
def LineState.next (state : LineState) (c : Char) : LineState :=
  let opened (otherwise : LineState) : LineState :=
    if c = '\\' then .escape else if c = '"' then .weak else if c = '\'' then .strong
    else otherwise
  match state with
  | .blank => if c = '#' then .comment else opened .complete
  | .complete => if isBlank c && c != '\n' && c != '\r' then .blank else opened .complete
  | .escape => .complete
  | .weak => if c = '\\' then .weakEscape else if c = '"' then .complete else .weak
  | .weakEscape => .weak
  | .strong => if c = '\\' then .strongEscape else if c = '\'' then .complete else .strong
  | .strongEscape => .strong
  | .comment => .comment

/-- The state behind a line, and the line up to a comment. -/
def LineState.behind : LineState → (read : List Char) → List Char → LineState × List Char
  | state, read, [] => (state, read.reverse)
  | state, read, c :: rest =>
    match state.next c with
    | .comment => (.comment, read.reverse)
    | state => behind state (c :: read) rest

/-- The lines of a file, each with the newline that ends it. -/
def fileLines : List Char → List (List Char)
  | [] => []
  | '\n' :: rest => ['\n'] :: fileLines rest
  | c :: rest =>
    match rest, fileLines rest with
    | _ :: _, line :: lines => (c :: line) :: lines
    | _, lines => [c] :: lines

/-- A line without the newline that ends it. -/
def withoutNewline (line : List Char) : List Char :=
  match line.reverse with
  | '\n' :: '\r' :: rest => rest.reverse
  | '\n' :: rest => rest.reverse
  | _ => line

/-- The lines of a file with values over several lines joined, up to a value
that does not end. `pending` is what has been joined so far. -/
def joinedLines : LineState → (pending : List Char) → List (List Char) →
    List (Option (List Char))
  | .complete, _, [] => []
  | _, _, [] => [none]
  | state, pending, line :: lines =>
    let whole := pending ++ line
    match whole.dropWhile isBlank with
    | '#' :: _ => some [] :: joinedLines .complete [] lines
    | _ =>
      match state.behind [] line with
      | (.complete, _) => some (withoutNewline whole) :: joinedLines .complete [] lines
      | (.comment, kept) => some (pending ++ kept) :: joinedLines .complete [] lines
      | (state, _) => joinedLines state whole lines

/-! ## Values -/

/-- Where a reader stands inside a value. -/
inductive ValueState where
  /-- Outside of quotes. -/
  | bare
  /-- In double quotes. -/
  | weak
  /-- In single quotes. -/
  | strong
  /-- Behind a backslash, in double quotes or not. -/
  | escape (weak : Bool)
  /-- In the name of a variable, which is kept backwards. -/
  | name (weak : Bool) (read : List Char)
  /-- In the name of a variable in braces. -/
  | braced (weak : Bool) (read : List Char)
  /-- Behind the value. -/
  | ended

/-- Outside of single quotes, in double quotes or not. -/
def ValueState.outside (weak : Bool) : ValueState := if weak then .weak else .bare

/-- The characters that a name behind a dollar sign is made of. -/
def continuesVariable (c : Char) : Bool := c.isAlphanum || '\x7f' < c

/-- The value of a variable, backwards; one that has none is empty. -/
def valueBackwards (env : Table String) (name : List Char) : List Char :=
  ((env.get? (String.ofList name.reverse)).getD "").toList.reverse

/-- The rest of a value, when `read` has been read, the last character
first. -/
def valueFrom (env : Table String) :
    ValueState → (read : List Char) → List Char → Option (List Char)
  | .ended, read, [] => some read
  | .ended, read, c :: rest =>
    if c = ' ' ∨ c = '\t' then valueFrom env .ended read rest
    else if c = '#' then some read
    else none
  | .escape _, read, [] => some read
  | .escape weak, read, c :: rest =>
    if c = '\\' ∨ c = '\'' ∨ c = '"' ∨ c = '$' ∨ c = ' ' then
      valueFrom env (.outside weak) (c :: read) rest
    else if c = 'n' then valueFrom env (.outside weak) ('\n' :: read) rest
    else none
  | .strong, _, [] => none
  | .strong, read, c :: rest =>
    if c = '\'' then valueFrom env .bare read rest else valueFrom env .strong (c :: read) rest
  | .name weak name, read, [] =>
    if weak then none else some (valueBackwards env name ++ read)
  | .name weak name, read, c :: rest =>
    if continuesVariable c then valueFrom env (.name weak (c :: name)) read rest
    else if c = '\x7b' ∧ name.isEmpty then valueFrom env (.braced weak []) read rest
    else if c = '$' then valueFrom env (.name weak []) (valueBackwards env name ++ read) rest
    else valueFrom env (.outside weak) (c :: (valueBackwards env name ++ read)) rest
  | .braced _ _, _, [] => none
  | .braced weak name, read, c :: rest =>
    if c = '\x7d' then valueFrom env (.outside weak) (valueBackwards env name ++ read) rest
    else valueFrom env (.braced weak (c :: name)) read rest
  | .weak, _, [] => none
  | .weak, read, c :: rest =>
    if c = '$' then valueFrom env (.name true []) read rest
    else if c = '"' then valueFrom env .bare read rest
    else if c = '\\' then valueFrom env (.escape true) read rest
    else valueFrom env .weak (c :: read) rest
  | .bare, read, [] => some read
  | .bare, read, c :: rest =>
    if c = '$' then valueFrom env (.name false []) read rest
    else if c = '\'' then valueFrom env .strong read rest
    else if c = '"' then valueFrom env .weak read rest
    else if c = '\\' then valueFrom env (.escape false) read rest
    else if c = ' ' ∨ c = '\t' then valueFrom env .ended read rest
    else valueFrom env .bare (c :: read) rest

/-- **A value**, with the variables in it. -/
def readValue? (env : Table String) (text : List Char) : Option String :=
  match text with
  | [] => some ""
  | '#' :: _ => some ""
  | text => (valueFrom env .bare [] text).map fun read => String.ofList read.reverse

/-! ## Assignments -/

/-- A name, and what follows it without the blanks between. -/
def readName? (text : List Char) : Option (String × List Char) :=
  match text with
  | [] => none
  | c :: _ =>
    if c.isAlpha ∨ c = '_' then
      let name := text.takeWhile fun c => c.isAlphanum || c == '_' || c == '.'
      some (String.ofList name, (text.drop name.length).dropWhile isBlank)
    else none

/-- What a name is given, behind the equals sign. -/
def readAssigned? (env : Table String) (name : String) (text : List Char) :
    Option (String × String) :=
  match text with
  | '=' :: rest => (readValue? env (rest.dropWhile isBlank)).map fun value => (name, value)
  | _ => none

/-- **The assignment on a line**, or none on a line without one. The word
`export` before a name does not count, but it can be a name itself. -/
def readLine? (env : Table String) (line : List Char) : Option (Option (String × String)) :=
  match trim line with
  | [] => some none
  | '#' :: _ => some none
  | text => do
    let (name, rest) ← readName? text
    if name = "export" ∧ rest.head? ≠ some '=' then
      let (name, rest) ← readName? rest
      return some (← readAssigned? env name rest)
    else return some (← readAssigned? env name rest)

/-- The environment after some lines. -/
def loadLines (env : Table String) : List (Option (List Char)) → Table String
  | [] => env
  | none :: _ => env
  | some line :: lines =>
    match readLine? env line with
    | none => env
    | some none => loadLines env lines
    | some (some (name, value)) =>
      loadLines (if (env.get? name).isSome then env else env.insert name value) lines

/-- **The environment after a file was loaded into it.** A byte order mark at
the start of the file does not count. -/
def load (env : Table String) (file : String) : Table String :=
  let text :=
    match file.toList with
    | '\ufeff' :: text => text
    | text => text
  loadLines env (joinedLines .complete [] (fileLines text))

end EnvFile

end Rulebook
