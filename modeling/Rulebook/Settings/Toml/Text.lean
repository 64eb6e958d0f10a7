import Rulebook.Json.Reader

/-!
# Texts and keys of TOML

A text stands in double quotes, where a backslash begins an escape, or in
single quotes, where nothing does. Either can stand in three quotes instead
of one and then go over several lines; a newline right behind the opening
does not count.
-/

namespace Rulebook

namespace Toml

/-- Whether a character may stand in a text or a comment as it is. -/
def isPlainChar (c : Char) : Bool := (' ' ≤ c && c != '\x7f') || c == '\t'

/-- A space or a tab. -/
def isSpace (c : Char) : Bool := c == ' ' || c == '\t'

/-- A text without the spaces at its start. -/
def skipSpaces (text : List Char) : List Char := text.dropWhile isSpace

/-- The rest of a text behind the end of a line. -/
def newline? : List Char → Option (List Char)
  | '\n' :: rest => some rest
  | '\r' :: '\n' :: rest => some rest
  | _ => none

/-- The character of an escape that is written in hexadecimal digits. -/
def escapedScalar? (width : Nat) (text : List Char) : Option (Char × List Char) := do
  let digits ← (text.take width).mapM Json.hexValue?
  let n := digits.foldl (fun n d => 16 * n + d) 0
  if digits.length = width ∧ n.isValidChar then return (Char.ofNat n, text.drop width) else none

/-- The character of an escape, behind the backslash. -/
def escaped? : List Char → Option (Char × List Char)
  | 'b' :: rest => some ('\x08', rest)
  | 't' :: rest => some ('\t', rest)
  | 'n' :: rest => some ('\n', rest)
  | 'f' :: rest => some ('\x0c', rest)
  | 'r' :: rest => some ('\r', rest)
  | '"' :: rest => some ('"', rest)
  | '\\' :: rest => some ('\\', rest)
  | 'u' :: rest => escapedScalar? 4 rest
  | 'U' :: rest => escapedScalar? 8 rest
  | _ => none

/-- The rest of a text in double quotes on one line. Every character that is
read shortens what is left, so its length is `fuel` enough. -/
def basicBody : (fuel : Nat) → (read : List Char) → List Char → Option (String × List Char)
  | 0, _, _ => none
  | _, _, [] => none
  | _ + 1, read, '"' :: rest => some (String.ofList read.reverse, rest)
  | fuel + 1, read, '\\' :: rest => do
    let (c, rest) ← escaped? rest
    basicBody fuel (c :: read) rest
  | fuel + 1, read, c :: rest => if isPlainChar c then basicBody fuel (c :: read) rest else none

/-- The rest of a text in single quotes on one line. -/
def literalBody (text : List Char) : Option (String × List Char) :=
  let body := text.takeWhile (· ≠ '\'')
  match text.drop body.length with
  | _ :: rest => if body.all isPlainChar then some (String.ofList body, rest) else none
  | [] => none

/-- Quotes that end a text of several lines: three, with up to two before them
that belong to the text. -/
def closing? (quote : Char) (text : List Char) : Option (Nat × List Char) :=
  let run := min 5 (text.takeWhile (· = quote)).length
  if 3 ≤ run then some (run - 3, text.drop run) else none

/-- The rest of a text behind a backslash at the end of a line: spaces and ends
of lines up to the next character do not count. -/
def continued? (text : List Char) : Option (List Char) :=
  (newline? (skipSpaces text)).map fun rest =>
    rest.dropWhile fun c => isSpace c || c == '\n' || c == '\r'

/-- The rest of a text of several lines, in double quotes if `escapes`. -/
def linesBody (quote : Char) (escapes : Bool) :
    (fuel : Nat) → (read : List Char) → List Char → Option (String × List Char)
  | 0, _, _ => none
  | fuel + 1, read, text =>
    match closing? quote text with
    | some (extra, rest) =>
      some (String.ofList (List.replicate extra quote ++ read).reverse, rest)
    | none =>
      match newline? text with
      | some rest => linesBody quote escapes fuel ('\n' :: read) rest
      | none =>
        match text with
        | [] => none
        | c :: rest =>
          if escapes && c == '\\' then
            match continued? rest with
            | some rest => linesBody quote escapes fuel read rest
            | none => do
              let (c, rest) ← escaped? rest
              linesBody quote escapes fuel (c :: read) rest
          else if isPlainChar c then linesBody quote escapes fuel (c :: read) rest
          else none

/-- A text of several lines behind its opening. -/
def readLines (quote : Char) (escapes : Bool) (text : List Char) :
    Option (String × List Char) :=
  let text := (newline? text).getD text
  linesBody quote escapes (text.length + 1) [] text

/-- **A text in quotes**, if one begins here. -/
def readText? : List Char → Option (Option (String × List Char))
  | '"' :: '"' :: '"' :: rest => some (readLines '"' true rest)
  | '\'' :: '\'' :: '\'' :: rest => some (readLines '\'' false rest)
  | '"' :: rest => some (basicBody (rest.length + 1) [] rest)
  | '\'' :: rest => some (literalBody rest)
  | _ => none

/-! ## Keys -/

/-- The characters of a key without quotes. -/
def isBareChar (c : Char) : Bool := c.isAlphanum || c == '_' || c == '-'

/-- One key. -/
def readKey? : List Char → Option (String × List Char)
  | '"' :: rest => basicBody (rest.length + 1) [] rest
  | '\'' :: rest => literalBody rest
  | text =>
    let key := text.takeWhile isBareChar
    if key.isEmpty then none else some (String.ofList key, text.drop key.length)

/-- **Keys with points between them.** -/
def readPath? : (fuel : Nat) → List Char → Option (List String × List Char)
  | 0, _ => none
  | fuel + 1, text => do
    let (key, rest) ← readKey? text
    let rest := skipSpaces rest
    match rest with
    | '.' :: rest => do
      let (path, rest) ← readPath? fuel (skipSpaces rest)
      return (key :: path, rest)
    | rest => return ([key], rest)

end Toml

end Rulebook
