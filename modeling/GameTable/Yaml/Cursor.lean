/-!
# A place in a text

A text that is laid out by indentation is read with an eye on lines and columns. A `Cursor` is the
text that is still to be read, with the place where it starts.
-/

namespace GameTable.Yaml

structure Cursor where
  rest : List Char
  line : Nat
  column : Nat
  /-- How many characters have been read. -/
  index : Nat

/-- The characters that end a line. -/
def isBreak (c : Char) : Bool :=
  c = '\n' || c = '\r' || c.toNat = 0x85 || c.toNat = 0x2028 || c.toNat = 0x2029

/-- The characters that separate words on a line. -/
def isGap (c : Char) : Bool := c = ' ' || c = '\t'

/-- Whether a word ends before these characters. -/
def atWordEnd : List Char → Bool
  | [] => true
  | c :: _ => isGap c || isBreak c

/-- Whether a line starts or ends a document: three dashes or three points, alone. -/
def atDocumentMark (mark : Char) (cs : List Char) : Bool :=
  cs.take 3 = [mark, mark, mark] && atWordEnd (cs.drop 3)

namespace Cursor

def ofChars (cs : List Char) : Cursor := ⟨cs, 0, 0, 0⟩

/-- Passes characters of the same line. -/
def skip (c : Cursor) (n : Nat) : Cursor :=
  { c with rest := c.rest.drop n, column := c.column + n, index := c.index + n }

/-- Passes the characters of the same line for which a condition holds. -/
def skipWhile (p : Char → Bool) (c : Cursor) : Cursor := c.skip (c.rest.takeWhile p).length

/-- Passes the end of a line. What stands for it in the text is a line feed, except for the two
separators of their own. -/
def breakLine (c : Cursor) : List Char × Cursor :=
  let next := fun (rest : List Char) (n : Nat) => Cursor.mk rest (c.line + 1) 0 (c.index + n)
  match c.rest with
  | '\r' :: '\n' :: rest => (['\n'], next rest 2)
  | ch :: rest =>
    (if ch.toNat = 0x2028 || ch.toNat = 0x2029 then [ch] else ['\n'], next rest 1)
  | [] => ([], c)

/-- Whether a line starts here that starts or ends a document. -/
def atDocumentLine (c : Cursor) : Bool :=
  c.column = 0 && (atDocumentMark '-' c.rest || atDocumentMark '.' c.rest)

end Cursor

end GameTable.Yaml
