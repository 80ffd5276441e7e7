import GameTable.Json.Basic
import GameTable.Decimal.Layout

/-!
# Printing documents

The compact text of a document: no blanks, members in the order they have, numbers in the stored
layout. Inside a text only the quote, the backslash and the control characters below the space
are escaped; everything else stands for itself.
-/

namespace GameTable.Json

/-- Four hexadecimal digits of a small number. -/
def hex4 (n : Nat) : List Char :=
  let digits := Nat.toDigits 16 n
  List.replicate (4 - digits.length) '0' ++ digits

/-- How one character is written inside the quotes. -/
def escapeChar (c : Char) : List Char :=
  if c = '"' then ['\\', '"']
  else if c = '\\' then ['\\', '\\']
  else if c = '\n' then ['\\', 'n']
  else if c = '\r' then ['\\', 'r']
  else if c = '\t' then ['\\', 't']
  else if c.toNat = 8 then ['\\', 'b']
  else if c.toNat = 12 then ['\\', 'f']
  else if c.toNat < 32 then ['\\', 'u'] ++ hex4 c.toNat
  else [c]

/-- A text between quotes. -/
def printText (s : String) : List Char :=
  '"' :: s.toList.flatMap escapeChar ++ ['"']

def printInt (n : Int) : List Char :=
  if n < 0 then '-' :: Nat.toDigits 10 n.natAbs else Nat.toDigits 10 n.natAbs

mutual

/-- The characters of the compact text. -/
def print : Json → List Char
  | .null => ['n', 'u', 'l', 'l']
  | .bool true => ['t', 'r', 'u', 'e']
  | .bool false => ['f', 'a', 'l', 's', 'e']
  | .int n => printInt n
  | .float x => (Decimal.stored.text x.val).toList
  | .str s => printText s
  | .arr items => '[' :: printItems items ++ [']']
  | .obj members => '\x7b' :: printMembers members ++ ['\x7d']

/-- Items separated by commas. -/
def printItems : List Json → List Char
  | [] => []
  | [j] => print j
  | j :: rest => print j ++ ',' :: printItems rest

/-- Named members separated by commas. -/
def printMembers : List (String × Json) → List Char
  | [] => []
  | [(k, j)] => printText k ++ ':' :: print j
  | (k, j) :: rest => printText k ++ ':' :: print j ++ ',' :: printMembers rest

end

/-- The compact text. -/
def render (j : Json) : String := .ofList (print j)

example : render (.obj [("a", .arr [.null, .bool true]), ("b", .str "x\n\"")])
    = "\x7b\"a\":[null,true],\"b\":\"x\\n\\\"\"\x7d" := by decide +kernel

end GameTable.Json
