import Rulebook.Journal
import Rulebook.Number.Decimal
import Rulebook.Text.Blank
import Rulebook.Token

/-!
# Cutting a rule text into tokens

At each position the kinds of token are tried in a fixed order and the first
that matches is taken, as long as it goes (`lexeme?`): a comparator of two
characters before one of one, a connective before a name – so `ORDER` is
`OR` and `DER` – then parentheses, names, quoted texts, digits. A character
at which nothing starts is dropped. Nothing is ever refused.

`scan` cuts the text into lexemes and dropped characters; the tokens and the
dropped stretches are two views of that one cut.
-/

namespace Rulebook

/-- The characters a name can begin with. -/
def startsName (c : Char) : Bool := c.isAlpha || c == '_'

/-- The characters a name can go on with. -/
def continuesName (c : Char) : Bool := c.isAlphanum || c == '_'

/-- **A piece of text that is a token.** -/
structure Lexeme where
  /-- The characters of the piece. -/
  slice : List Char
  /-- The token they spell. -/
  token : Token
deriving DecidableEq

/-- A comparator at the start of a text, two characters before one. -/
def comparatorSlice? : List Char → Option (List Char)
  | '=' :: '>' :: _ => some ['=', '>']
  | '<' :: '=' :: _ => some ['<', '=']
  | '>' :: '=' :: _ => some ['>', '=']
  | '=' :: '=' :: _ => some ['=', '=']
  | '!' :: '=' :: _ => some ['!', '=']
  | '<' :: _ => some ['<']
  | '>' :: _ => some ['>']
  | '=' :: _ => some ['=']
  | _ => none

/-- The part of a text up to the next quote, if one stands on the same line. -/
def untilQuote? (text : List Char) : Option (List Char) :=
  let body := text.takeWhile (fun c => c ≠ '\'' ∧ c ≠ '\n')
  match text.drop body.length with
  | '\'' :: _ => some body
  | _ => none

/-- The piece that begins with a character and goes on with a stretch. -/
def Lexeme.ofStretch (first : Char) (more : List Char) (token : String → Token) : Lexeme :=
  ⟨first :: more, token (String.ofList (first :: more))⟩

/-- **The token at the start of a text**, by the first kind that matches. -/
def lexeme? (text : List Char) : Option Lexeme :=
  match comparatorSlice? text with
  | some slice => some ⟨slice, .comparator (.ofText (String.ofList slice))⟩
  | none =>
    match text with
    | 'A' :: 'N' :: 'D' :: _ => some ⟨['A', 'N', 'D'], .and⟩
    | 'O' :: 'R' :: _ => some ⟨['O', 'R'], .or⟩
    | '(' :: _ => some ⟨['('], .leftParen⟩
    | ')' :: _ => some ⟨[')'], .rightParen⟩
    | c :: rest =>
      if startsName c then
        some (.ofStretch c (rest.takeWhile continuesName) .identifier)
      else if c = '\'' then
        (untilQuote? rest).map fun body => .ofStretch '\'' (body ++ ['\'']) .quotedText
      else if c.isDigit then
        let digits := c :: rest.takeWhile Char.isDigit
        some ⟨digits, .number (.ofNat (natOfDigits digits))⟩
      else none
    | [] => none

/-- What a position of the text turned out to be. -/
inductive Cut where
  /-- A token starts here. -/
  | lexeme (l : Lexeme)
  /-- The character here is dropped. -/
  | dropped (c : Char)
deriving DecidableEq

/-- The cut of a text after its first `skip` characters, which belong to a
lexeme already found. -/
def scanFrom : (skip : Nat) → (text : List Char) → List Cut
  | _, [] => []
  | skip + 1, _ :: rest => scanFrom skip rest
  | 0, c :: rest =>
    match lexeme? (c :: rest) with
    | some l => .lexeme l :: scanFrom (l.slice.length - 1) rest
    | none => .dropped c :: scanFrom 0 rest

/-- **The cut of a text** into lexemes and dropped characters. -/
def scan (text : List Char) : List Cut := scanFrom 0 text

/-- The lexemes of a cut, in order. -/
def lexemesOf : List Cut → List Lexeme
  | [] => []
  | .lexeme l :: cuts => l :: lexemesOf cuts
  | .dropped _ :: cuts => lexemesOf cuts

/-- The stretches of dropped characters of a cut: before the first lexeme,
between two, and after the last. -/
def gapsOf : List Cut → List (List Char)
  | [] => [[]]
  | .lexeme _ :: cuts => [] :: gapsOf cuts
  | .dropped c :: cuts =>
    match gapsOf cuts with
    | gap :: gaps => (c :: gap) :: gaps
    | [] => [[c]]

/-- The lexemes of a text. -/
def lexemes (text : List Char) : List Lexeme := lexemesOf (scan text)

/-- The stretches of a text that belong to no token. -/
def gaps (text : List Char) : List (List Char) := gapsOf (scan text)

/-- **The tokens of a text.** -/
def tokenize (text : String) : List Token := (lexemes text.toList).map Lexeme.token

/-- What the journal says about a cut: each dropped stretch that is not
blank, without the blanks around it. -/
def tokenizeJournal (text : String) : Journal :=
  ((gaps text.toList).map trim).filterMap fun gap =>
    if gap.isEmpty then none
    else some (.event .debug .lexer "忽略无法识别的输入片段"
      [("fragment", .shown (String.ofList gap))])

end Rulebook
