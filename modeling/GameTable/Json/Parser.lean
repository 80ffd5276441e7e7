import GameTable.Json.Written
import GameTable.Decimal.Reading

/-!
# Reading documents

The grammar of documents as parsers on lists of characters: each takes the text, and returns what
it read with the rest, or nothing. Only lists and objects nest, and a document may nest at most
`maxDepth` of them, so `value` recurses on the levels that are left; what is nested more deeply is
passed over without recursion and is unreadable. The members of an object are kept in the order of
the text, repeated names included; `Json.normalized` merges them.
-/

namespace GameTable.Json

/-- The deepest nesting of lists and objects that is read. -/
def maxDepth : Nat := 127

def isSpace (c : Char) : Bool := c = ' ' || c = '\n' || c = '\r' || c = '\t'

def skipSpace (cs : List Char) : List Char := cs.dropWhile isSpace

/-- The digits of a four-place hexadecimal number. -/
def readHex4 : List Char → Option (Nat × List Char)
  | a :: b :: c :: d :: rest => do
    let digit (x : Char) : Option Nat :=
      if x.isDigit then some (x.toNat - '0'.toNat)
      else if 'a' ≤ x ∧ x ≤ 'f' then some (x.toNat - 'a'.toNat + 10)
      else if 'A' ≤ x ∧ x ≤ 'F' then some (x.toNat - 'A'.toNat + 10)
      else none
    let n := 4096 * (← digit a) + 256 * (← digit b) + 16 * (← digit c) + (← digit d)
    pure (n, rest)
  | _ => none

/-- The character that a one-letter escape stands for. -/
def simpleEscape : Char → Option Char
  | '"' => some '"'
  | '\\' => some '\\'
  | '/' => some '/'
  | 'b' => some '\x08'
  | 'f' => some '\x0c'
  | 'n' => some '\n'
  | 'r' => some '\r'
  | 't' => some '\t'
  | _ => none

/-- The codes up to the closing quote: of a character its code point, of a numbered escape its
number. The opening quote has been read; `fuel` bounds the characters still to read. -/
def readCodes (fuel : Nat) (cs : List Char) : Option (List Nat × List Char) :=
  match fuel with
  | 0 => none
  | fuel + 1 =>
    match cs with
    | [] => none
    | '"' :: rest => some ([], rest)
    | '\\' :: 'u' :: rest => do
      let (n, rest) ← readHex4 rest
      let (codes, rest) ← readCodes fuel rest
      pure (n :: codes, rest)
    | '\\' :: e :: rest => do
      let c ← simpleEscape e
      let (codes, rest) ← readCodes fuel rest
      pure (c.toNat :: codes, rest)
    | c :: rest =>
      if c.toNat < 32 || c = '\\' then none
      else do
        let (codes, rest) ← readCodes fuel rest
        pure (c.toNat :: codes, rest)

/-- The first half of a surrogate pair. -/
def isHighHalf (n : Nat) : Bool := 0xD800 ≤ n && n < 0xDC00

/-- The second half of a surrogate pair. -/
def isLowHalf (n : Nat) : Bool := 0xDC00 ≤ n && n < 0xE000

/-- The characters of a text in codes. The two halves of a surrogate pair make one character; a
half on its own is none. -/
def decodeText : List Nat → Option (List Char)
  | [] => some []
  | [n] => if isHighHalf n || isLowHalf n then none else some [Char.ofNat n]
  | n :: m :: rest =>
    if isHighHalf n && isLowHalf m then
      (decodeText rest).map (Char.ofNat (0x10000 + (n - 0xD800) * 0x400 + (m - 0xDC00)) :: ·)
    else if isHighHalf n || isLowHalf n then none
    else (decodeText (m :: rest)).map (Char.ofNat n :: ·)

/-- A text after its opening quote, and nothing in its place if its codes make none. -/
def readText (cs : List Char) : Option (Option String × List Char) := do
  let (codes, rest) ← readCodes (cs.length + 1) cs
  pure ((decodeText codes).map .ofList, rest)

/-- The fraction of a number: a point and at least one digit, or nothing at all. -/
def readFraction : List Char → Option (List Char × List Char)
  | '.' :: rest =>
    let (digits, rest) := rest.span Char.isDigit
    if digits.isEmpty then none else some (digits, rest)
  | rest => some ([], rest)

/-- The exponent of a number, if it has one. -/
def readExponent : List Char → Option (Option Int × List Char)
  | e :: rest =>
    if e = 'e' || e = 'E' then
      let (negative, rest) := Decimal.readSign rest
      let (digits, rest) := rest.span Char.isDigit
      if digits.isEmpty then none
      else
        let n : Int := Decimal.digitsValue digits
        some (some (if negative then -n else n), rest)
    else some (none, e :: rest)
  | [] => some (none, [])

/-- The value of a number in its parts. Written without point and exponent it is an integer if it
fits 64 bits, signed or unsigned; the minus zero and anything larger is a float. A number beyond
the floats is unreadable. -/
def numberOf (negative : Bool) (whole fraction : List Char) (exponent : Option Int) : Written :=
  let n : Int := if negative then -Decimal.digitsValue whole else Decimal.digitsValue whole
  if fraction.isEmpty && exponent.isNone && !(negative && n == 0)
      && decide (minInteger ≤ n ∧ n ≤ maxUnsigned) then
    .int n
  else
    match (Decimal.storedValue negative ⟨whole, fraction, exponent.getD 0⟩).bind
        FiniteFloat.ofFloat? with
    | some x => .float x
    | none => .unreadable

/-- A number. -/
def readNumber (cs : List Char) : Option (Written × List Char) := do
  let (negative, cs) := match cs with
    | '-' :: rest => (true, rest)
    | _ => (false, cs)
  let (whole, rest) := cs.span Char.isDigit
  if whole.isEmpty || (whole.length > 1 && whole.head? == some '0') then none
  let (fraction, rest) ← readFraction rest
  let (exponent, rest) ← readExponent rest
  pure (numberOf negative whole fraction exponent, rest)

/-- A value that is neither a list nor an object. -/
def readScalar : List Char → Option (Written × List Char)
  | 'n' :: 'u' :: 'l' :: 'l' :: rest => some (.null, rest)
  | 't' :: 'r' :: 'u' :: 'e' :: rest => some (.bool true, rest)
  | 'f' :: 'a' :: 'l' :: 's' :: 'e' :: rest => some (.bool false, rest)
  | '"' :: rest => do
    let (s, rest) ← readText rest
    pure ((s.map .str).getD .unreadable, rest)
  | rest => readNumber rest

/-- The name of a member and the colon behind it. -/
def readName (cs : List Char) : Option (Option String × List Char) :=
  match skipSpace cs with
  | '"' :: rest => do
    let (k, rest) ← readText rest
    match skipSpace rest with
    | ':' :: rest => pure (k, rest)
    | _ => none
  | _ => none

/-- Items separated by commas, up to and including the closing character. -/
def readSeparated {α : Type} (item : List Char → Option (α × List Char)) (close : Char) :
    Nat → List Char → Option (List α × List Char)
  | 0, _ => none
  | fuel + 1, cs => do
    let (a, rest) ← item cs
    match skipSpace rest with
    | c :: rest =>
      if c = close then pure ([a], rest)
      else if c = ',' then do
        let (more, rest) ← readSeparated item close fuel rest
        pure (a :: more, rest)
      else none
    | [] => none

/-- A possibly empty sequence up to the closing character. -/
def readSequence {α : Type} (item : List Char → Option (α × List Char)) (close : Char)
    (cs : List Char) : Option (List α × List Char) :=
  match skipSpace cs with
  | [] => none
  | c :: rest =>
    if c = close then some ([], rest) else readSeparated item close (cs.length + 1) (c :: rest)

/-- What may follow inside a collection that is passed over. -/
inductive Awaited where
  | itemOrClose
  | item
  | commaOrClose

/-- Passes over the rest of the collections that are open, given their closing characters, innermost
first; `fuel` bounds the characters still to read. -/
def passOver : Nat → Awaited → List Char → List Char → Option (List Char)
  | 0, _, _, _ => none
  | _, _, [], cs => some cs
  | fuel + 1, awaited, close :: outer, cs =>
    let readItem := fun (_ : Unit) => do
      let cs ← if close = '\x7d' then (readName cs).map (·.2) else some cs
      match skipSpace cs with
      | '[' :: rest => passOver fuel .itemOrClose (']' :: close :: outer) rest
      | '\x7b' :: rest => passOver fuel .itemOrClose ('\x7d' :: close :: outer) rest
      | cs => do
        let (_, rest) ← readScalar cs
        passOver fuel .commaOrClose (close :: outer) rest
    match skipSpace cs with
    | [] => none
    | c :: rest =>
      match awaited with
      | .itemOrClose => if c = close then passOver fuel .commaOrClose outer rest else readItem ()
      | .item => readItem ()
      | .commaOrClose =>
        if c = close then passOver fuel .commaOrClose outer rest
        else if c = ',' then passOver fuel .item (close :: outer) rest
        else none

/-- A collection after its opening character, passed over. -/
def readDeep (close : Char) (cs : List Char) : Option (Written × List Char) := do
  let rest ← passOver (cs.length + 1) .itemOrClose [close] cs
  pure (.unreadable, rest)

/-- A named member of an object. -/
def readMember (value : List Char → Option (Written × List Char)) (cs : List Char) :
    Option ((Option String × Written) × List Char) := do
  let (k, rest) ← readName cs
  let (w, rest) ← value rest
  pure ((k, w), rest)

/-- An object with the given members; one of them without a readable name spoils it. -/
def objectOf (members : List (Option String × Written)) : Written :=
  match members.mapM fun (k, w) => k.map (·, w) with
  | some members => .obj members
  | none => .unreadable

/-- A value with at most `depth` levels of readable lists and objects. -/
def value (depth : Nat) (cs : List Char) : Option (Written × List Char) :=
  match skipSpace cs with
  | '[' :: rest =>
    match depth with
    | 0 => readDeep ']' rest
    | depth + 1 => do
      let (items, rest) ← readSequence (value depth) ']' rest
      pure (.arr items, rest)
  | '\x7b' :: rest =>
    match depth with
    | 0 => readDeep '\x7d' rest
    | depth + 1 => do
      let (members, rest) ← readSequence (readMember (value depth)) '\x7d' rest
      pure (objectOf members, rest)
  | rest => readScalar rest

/-- Reads a whole text that follows the grammar. -/
def read (s : String) : Option Written := do
  let (w, rest) ← value maxDepth s.toList
  if (skipSpace rest).isEmpty then some w else none

/-- Reads a whole text as one document, members in the order of the text. -/
def parse (s : String) : Option Json := (read s).bind Written.toJson?

example : parse " \x7b\"b\":[1,-0,1.5e1],\"a\":\"\\u00e9\\ud83d\\ude00\"\x7d "
    = some (.obj [("b", .arr [.int 1, .float ⟨-0.0, by decide +kernel⟩,
        .float ⟨15.0, by decide +kernel⟩]), ("a", .str "é😀")]) := by decide +kernel

end GameTable.Json
