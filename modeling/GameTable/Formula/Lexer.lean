import GameTable.Formula.Error
import GameTable.Decimal.Reading
import GameTable.Text.Alphabet

/-!
# From text to tokens

`tokenize` reads a formula from left to right. At every place it takes the longest token that
starts there: a number, a name, a quoted text, or one of the operators, two characters wide if
the next one allows it. Blanks separate tokens and are dropped. The tokens end with one `eof`,
which stands behind the last character.
-/

namespace GameTable.Formula

/-- A failure at a position. -/
def malformed {α : Type} (position : Nat) (fault : Fault) : Except FormulaError α :=
  .error (.malformed position fault)

/-- The longest run of characters of a class, and the rest. -/
def spanChars (p : Char → Bool) : List Char → List Char × List Char
  | [] => ([], [])
  | c :: cs =>
    if p c then
      let (run, rest) := spanChars p cs
      (c :: run, rest)
    else ([], c :: cs)

/-- The characters that may follow the first one of a name. -/
def isNameChar (c : Char) : Bool := Text.isAlphanumeric c || c = '_'

/-- The token of a word: one of the four reserved words, or a name. -/
def wordToken (word : String) : Token :=
  if word = "true" then .true
  else if word = "false" then .false
  else if word = "null" then .null
  else if word = "in" then .in
  else .ident word

/-- The character that an escape in a quoted text stands for. -/
def escaped? : Char → Option Char
  | 'n' => some '\n'
  | 't' => some '\t'
  | 'r' => some '\r'
  | '\\' => some '\\'
  | '\'' => some '\''
  | '"' => some '"'
  | _ => none

/-- A number: digits, and after a point that a digit follows the digits of a fraction. Answers the
token, its length and the rest. -/
def lexNumber (start : Nat) (cs : List Char) : Except FormulaError (Token × Nat × List Char) :=
  let (whole, rest) := spanChars Char.isDigit cs
  let asInt : Except FormulaError (Token × Nat × List Char) :=
    match Decimal.readInteger (.ofList whole) with
    | some n => .ok (.int n, whole.length, rest)
    | none => malformed start (.invalidNumber (.ofList whole))
  match rest with
  | '.' :: d :: after =>
    if d.isDigit then
      let (fraction, rest) := spanChars Char.isDigit (d :: after)
      let text := whole ++ '.' :: fraction
      match Decimal.readFloat (.ofList text) with
      | some x => .ok (.double x, text.length, rest)
      | none => malformed start (.invalidNumber (.ofList text))
    else asInt
  | _ => asInt

/-- The rest of a quoted text, up to and including the closing quote. `start` is the position of
the opening quote, `position` that of the next character. Answers the text, its length and the
rest of the formula. -/
def lexText (quote : Char) (start position : Nat) :
    List Char → Except FormulaError (List Char × Nat × List Char)
  | [] => malformed start .unterminatedText
  | c :: cs =>
    if c = quote then .ok ([], 1, cs)
    else if c = '\\' then
      match cs with
      | [] => malformed position (.invalidEscape ' ')
      | e :: cs =>
        match escaped? e with
        | none => malformed position (.invalidEscape e)
        | some ch => do
          let (text, width, rest) ← lexText quote start (position + 2) cs
          .ok (ch :: text, width + 2, rest)
    else do
      let (text, width, rest) ← lexText quote start (position + 1) cs
      .ok (c :: text, width + 1, rest)

/-- The operators of two characters. -/
def pairToken? : Char → Char → Option Token
  | '=', '=' => some .eqEq
  | '!', '=' => some .notEq
  | '<', '=' => some .le
  | '>', '=' => some .ge
  | '&', '&' => some .andAnd
  | '|', '|' => some .orOr
  | _, _ => none

/-- The operators of one character. -/
def singleToken? : Char → Option Token
  | '<' => some .lt
  | '>' => some .gt
  | '!' => some .bang
  | '+' => some .plus
  | '-' => some .minus
  | '*' => some .star
  | '/' => some .slash
  | '%' => some .percent
  | '?' => some .question
  | ':' => some .colon
  | '.' => some .dot
  | ',' => some .comma
  | '(' => some .lParen
  | ')' => some .rParen
  | '[' => some .lBracket
  | ']' => some .rBracket
  | '\x7b' => some .lBrace
  | '\x7d' => some .rBrace
  | _ => none

/-- An operator, its length and the rest. -/
def lexOperator (start : Nat) (c : Char) (cs : List Char) :
    Except FormulaError (Token × Nat × List Char) :=
  match cs with
  | d :: rest =>
    match pairToken? c d with
    | some t => .ok (t, 2, rest)
    | none =>
      match singleToken? c with
      | some t => .ok (t, 1, cs)
      | none => malformed start (.unexpectedCharacter c)
  | [] =>
    match singleToken? c with
    | some t => .ok (t, 1, [])
    | none => malformed start (.unexpectedCharacter c)

/-- The token that starts with the character `c`, its length and the rest. -/
def lexToken (start : Nat) (c : Char) (cs : List Char) :
    Except FormulaError (Token × Nat × List Char) :=
  if c.isDigit then lexNumber start (c :: cs)
  else if Text.isLetter c || c = '_' then
    let (word, rest) := spanChars isNameChar (c :: cs)
    .ok (wordToken (.ofList word), word.length, rest)
  else if c = '"' || c = '\'' then do
    let (text, width, rest) ← lexText c start (start + 1) cs
    .ok (.str (.ofList text), width + 1, rest)
  else lexOperator start c cs

/-- The tokens of the characters from `position` on. Every token takes at least one character, so
`fuel` need not exceed their number. -/
def lexFrom : Nat → Nat → List Char → Except FormulaError (List Lexeme)
  | _, position, [] => .ok [⟨.eof, position⟩]
  | 0, position, _ => .ok [⟨.eof, position⟩]
  | fuel + 1, position, c :: cs =>
    if Text.isBlank c then lexFrom fuel (position + 1) cs
    else do
      let (token, width, rest) ← lexToken position c cs
      let more ← lexFrom fuel (position + width) rest
      .ok (⟨token, position⟩ :: more)

/-- The tokens of a formula's characters. -/
def tokenizeChars (cs : List Char) : Except FormulaError (List Lexeme) :=
  lexFrom cs.length 0 cs

/-- The tokens of a formula. -/
def tokenize (source : String) : Except FormulaError (List Lexeme) :=
  tokenizeChars source.toList

example : (tokenize "a.b >= 1.5").toOption
    = some [⟨.ident "a", 0⟩, ⟨.dot, 1⟩, ⟨.ident "b", 2⟩, ⟨.ge, 4⟩, ⟨.double 1.5, 7⟩, ⟨.eof, 10⟩] := by
  decide +kernel

end GameTable.Formula
