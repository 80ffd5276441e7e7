import GameTable.Yaml.Cursor

/-!
# Scalars

The texts in a document, in their notations: plain, in single or double quotes, and as blocks of
lines. All of them may go over several lines. In the plain and the quoted notations a line break
counts as a space, and each further one as a line feed; a block keeps its lines, unless it is
folded in the same manner.

Readers answer `none` where the text is malformed. The bound on the number of rounds that some of
them take is the number of characters that are left; every round passes at least one.
-/

namespace GameTable.Yaml

/-! ## Blanks and line breaks inside a text -/

/-- The blanks and line breaks between two words. -/
structure Gap where
  /-- The blanks, while there is no line break. -/
  blanks : List Char
  /-- The first line break and the further ones. -/
  breaks : Option (List Char × List Char)

namespace Gap

def empty : Gap := ⟨[], none⟩

def addBreak (g : Gap) (b : List Char) : Gap :=
  match g.breaks with
  | none => ⟨[], some (b, [])⟩
  | some (first, more) => ⟨[], some (first, more ++ b)⟩

/-- What a gap amounts to: a single line break is a space. -/
def text (g : Gap) : List Char :=
  match g.breaks with
  | none => g.blanks
  | some (first, more) =>
    if first = ['\n'] then (if more.isEmpty then [' '] else more) else first ++ more

/-- Reads a gap. After a line break no tab may stand before the column `indent`. -/
def read (indent : Int) : Nat → Gap → Cursor → Option (Gap × Cursor)
  | 0, g, c => some (g, c)
  | n + 1, g, c =>
    match c.rest with
    | [] => some (g, c)
    | ch :: _ =>
      if isBreak ch then
        let (b, c) := c.breakLine
        read indent n (g.addBreak b) c
      else if isGap ch then
        if g.breaks.isNone then read indent n { g with blanks := g.blanks ++ [ch] } (c.skip 1)
        else if ch = '\t' && c.column < indent then none
        else read indent n g (c.skip 1)
      else some (g, c)

end Gap

/-! ## Plain texts -/

/-- The characters that structure a collection in brackets. -/
def isFlowMark (c : Char) : Bool := c ∈ [',', '[', ']', '\x7b', '\x7d']

/-- The characters up to the end of a plain word. Inside brackets a colon right before a mark is
malformed. -/
def plainWord (inFlow : Bool) : List Char → Option (List Char)
  | [] => some []
  | c :: rest =>
    if isGap c || isBreak c then some []
    else if inFlow && c = ':' && rest.head?.any (fun d => isFlowMark d || d = '?') then none
    else if c = ':' && atWordEnd rest then some []
    else if inFlow && isFlowMark c then some []
    else (plainWord inFlow rest).map (c :: ·)

/-- Reads a plain text. The gap has been read, but belongs to the text only if more follows. The
flag in the result tells whether the text ends at the start of a line. -/
def readPlain (inFlow : Bool) (indent : Int) :
    Nat → List Char → Gap → Cursor → Option (List Char × Bool × Cursor)
  | 0, text, gap, c => some (text, gap.breaks.isSome, c)
  | n + 1, text, gap, c =>
    if c.atDocumentLine || c.rest.head? = some '#' then some (text, gap.breaks.isSome, c)
    else do
      let word ← plainWord inFlow c.rest
      let (text, gap) := if word.isEmpty then (text, gap) else (text ++ gap.text ++ word, .empty)
      let c := c.skip word.length
      if c.rest.isEmpty || !atWordEnd c.rest then return (text, gap.breaks.isSome, c)
      let (gap, c) ← Gap.read indent c.rest.length gap c
      if !inFlow && c.column < indent then return (text, gap.breaks.isSome, c)
      readPlain inFlow indent n text gap c

/-! ## Quoted texts -/

/-- The characters that a backslash and one more character stand for. -/
def simpleEscape? (c : Char) : Option Char :=
  match c with
  | '0' => some (.ofNat 0)
  | 'a' => some (.ofNat 7)
  | 'b' => some (.ofNat 8)
  | 't' | '\t' => some '\t'
  | 'n' => some '\n'
  | 'v' => some (.ofNat 11)
  | 'f' => some (.ofNat 12)
  | 'r' => some '\r'
  | 'e' => some (.ofNat 27)
  | ' ' | '"' | '/' | '\\' => some c
  | 'N' => some (.ofNat 0x85)
  | '_' => some (.ofNat 0xA0)
  | 'L' => some (.ofNat 0x2028)
  | 'P' => some (.ofNat 0x2029)
  | _ => none

/-- How many hexadecimal digits follow an escape. -/
def hexWidth? (c : Char) : Option Nat :=
  match c with
  | 'x' => some 2
  | 'u' => some 4
  | 'U' => some 8
  | _ => none

def hexDigit? (c : Char) : Option Nat :=
  if c.isDigit then some (c.toNat - '0'.toNat)
  else if 'a' ≤ c ∧ c ≤ 'f' then some (c.toNat - 'a'.toNat + 10)
  else if 'A' ≤ c ∧ c ≤ 'F' then some (c.toNat - 'A'.toNat + 10)
  else none

/-- The character of a code point in hexadecimal digits. -/
def hexChar? (width : Nat) (cs : List Char) : Option Char := do
  let digits ← (cs.take width).mapM hexDigit?
  let n := digits.foldl (fun n d => 16 * n + d) 0
  if digits.length = width ∧ n.isValidChar then some (.ofNat n) else none

/-- A part of a quoted text without blanks. -/
structure QuotedPart where
  text : List Char
  /-- How many characters it takes in its notation. -/
  width : Nat
  /-- Whether an escaped line break ends it. -/
  escapesBreak : Bool

namespace QuotedPart

def empty : QuotedPart := ⟨[], 0, false⟩

/-- Puts a character in front that takes `n` characters in its notation. -/
def cons (c : Char) (n : Nat) (p : QuotedPart) : QuotedPart :=
  { p with text := c :: p.text, width := p.width + n }

/-- Reads up to a blank, a line break or the closing quote. -/
def read? (quote : Char) (cs : List Char) : Option QuotedPart :=
  match cs with
  | [] => some empty
  | c :: rest =>
    if isGap c || isBreak c then some empty
    else if c = quote then
      if quote = '\'' && rest.head? = some quote then (read? quote rest.tail).map (cons quote 2)
      else some empty
    else if c = '\\' && quote = '"' then
      match rest with
      | [] => none
      | e :: more =>
        if isBreak e then some ⟨[], 1, true⟩
        else match simpleEscape? e, hexWidth? e with
          | some d, _ => (read? quote more).map (cons d 2)
          | none, some width => do
            let d ← hexChar? width more
            return (← read? quote (more.drop width)).cons d (2 + width)
          | none, none => none
    else (read? quote rest).map (cons c 1)
termination_by cs.length
decreasing_by all_goals simp; try omega

end QuotedPart

/-- Reads a quoted text behind the opening quote. -/
def readQuoted (quote : Char) : Nat → List Char → Cursor → Option (List Char × Cursor)
  | 0, _, _ => none
  | n + 1, text, c => do
    if c.atDocumentLine || c.rest.isEmpty then none
    let part ← QuotedPart.read? quote c.rest
    let text := text ++ part.text
    let c := c.skip part.width
    if c.rest.head? = some quote then return (text, c.skip 1)
    let (start, c) := if part.escapesBreak then (⟨[], some ([], [])⟩, c.breakLine.2) else (Gap.empty, c)
    let (gap, c) ← Gap.read 0 c.rest.length start c
    readQuoted quote n (text ++ gap.text) c

/-! ## Blocks -/

/-- What becomes of the line breaks at the end of a block. -/
inductive Chomping where
  /-- None is kept. -/
  | strip
  /-- One is kept. -/
  | clip
  /-- All are kept. -/
  | keep
deriving DecidableEq

/-- The first line of a block after its mark. -/
structure BlockHeader where
  chomping : Chomping
  /-- How far the lines are indented, if it is said. -/
  increment : Option Nat

def chompingOf? (c : Char) : Option Chomping :=
  if c = '+' then some .keep else if c = '-' then some .strip else none

/-- A digit that may tell the indentation; zero may not. -/
def incrementOf? (c : Char) : Option Nat :=
  if c.isDigit && c ≠ '0' then some (c.toNat - '0'.toNat) else none

/-- Reads the two indicators of a block, which may come in either order, and tells how many
characters they take. -/
def BlockHeader.read (cs : List Char) : BlockHeader × Nat :=
  let first := cs.head?
  let second := cs.tail.head?
  match first.bind chompingOf?, first.bind incrementOf? with
  | some chomping, _ =>
    match second.bind incrementOf? with
    | some n => (⟨chomping, some n⟩, 2)
    | none => (⟨chomping, none⟩, 1)
  | none, some n =>
    match second.bind chompingOf? with
    | some chomping => (⟨chomping, some n⟩, 2)
    | none => (⟨.clip, some n⟩, 1)
  | none, none => (⟨.clip, none⟩, 0)

/-- Passes indentation and empty lines. The result is the line breaks, the largest column that was
met, and where the next line with content starts. No tab may stand in the indentation. -/
def readBlockBreaks (indent : Option Nat) :
    Nat → List Char → Nat → Cursor → Option (List Char × Nat × Cursor)
  | 0, breaks, deepest, c => some (breaks, deepest, c)
  | n + 1, breaks, deepest, c =>
    let spaces := (c.rest.takeWhile (· = ' ')).length
    let c := c.skip (match indent with
      | some k => min spaces (k - c.column)
      | none => spaces)
    let deepest := max deepest c.column
    if indent.all (c.column < ·) && c.rest.head? = some '\t' then none
    else if c.rest.head?.any isBreak then
      let (b, c) := c.breakLine
      readBlockBreaks indent n (breaks ++ b) deepest c
    else some (breaks, deepest, c)

/-- Reads the lines of a block that are indented to the column `indent`. `lineBreak` is the break
after the last line, `breaks` those of the empty lines after it, and `spaced` tells whether that
line started with a blank. -/
def readBlockLines (folded : Bool) (indent : Nat) (chomping : Chomping) :
    Nat → List Char → List Char → List Char → Bool → Cursor → Option (List Char × Cursor)
  | 0, _, _, _, _, _ => none
  | n + 1, text, lineBreak, breaks, spaced, c =>
    if c.column = indent && !c.rest.isEmpty then do
      let blank := c.rest.head?.any isGap
      let joint :=
        if folded && lineBreak = ['\n'] && !spaced && !blank then
          if breaks.isEmpty then [' '] else []
        else lineBreak
      let line := c.rest.takeWhile fun ch => !isBreak ch
      let (lineBreak, c) := (c.skip line.length).breakLine
      let text := text ++ joint ++ breaks ++ line
      let (breaks, _, c) ← readBlockBreaks (some indent) (c.rest.length + 1) [] 0 c
      readBlockLines folded indent chomping n text lineBreak breaks blank c
    else
      let tail := match chomping with
        | .strip => []
        | .clip => lineBreak
        | .keep => lineBreak ++ breaks
      some (text ++ tail, c)

/-- Reads a block behind its mark. `parent` is the column of the collection around it, negative
if there is none. -/
def readBlock (folded : Bool) (parent : Int) (c : Cursor) : Option (List Char × Cursor) := do
  let (header, width) := BlockHeader.read c.rest
  let c := (c.skip width).skipWhile isGap
  let c := if c.rest.head? = some '#' then c.skipWhile fun ch => !isBreak ch else c
  if !c.rest.isEmpty && !c.rest.head?.any isBreak then none
  let c := c.breakLine.2
  let given := header.increment.map fun n => (max parent 0).toNat + n
  let (breaks, deepest, c) ← readBlockBreaks given (c.rest.length + 1) [] 0 c
  let indent := given.getD (max deepest (max (parent + 1).toNat 1))
  readBlockLines folded indent header.chomping (c.rest.length + 1) [] [] breaks false c

end GameTable.Yaml
