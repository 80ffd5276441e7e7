import GameTable.Yaml.Scalar

/-!
# Tokens of a document

A document is cut into texts and marks. Where collections are laid out by indentation, the marks
that begin and end them are not written: they are put in when a line is indented deeper or less
deep than those before. That something is a key only shows at the colon after it; so the place of
everything that may be a key is kept, and the mark is put in there afterwards.

Anchors, aliases, tags and directives are not part of the format and are refused.
-/

namespace GameTable.Yaml

inductive Token where
  | documentStart
  | documentEnd
  | blockSeqStart
  | blockMapStart
  | blockEnd
  | flowSeqStart
  | flowSeqEnd
  | flowMapStart
  | flowMapEnd
  | blockEntry
  | flowEntry
  | key
  | value
  /-- A text, and whether it is written without quotes. -/
  | scalar (plain : Bool) (text : String)
deriving DecidableEq, Repr

/-- The place of something that may turn out to be a key. -/
structure KeyPlace where
  /-- How many tokens stand before it. -/
  tokens : Nat
  line : Nat
  column : Nat
  index : Nat
  /-- Whether it has to be a key, because of its column. -/
  required : Bool

/-- What is known while a document is being cut. -/
structure Scan where
  cursor : Cursor
  /-- The tokens so far, the last one first. -/
  tokens : List Token
  count : Nat
  /-- The columns of the collections around that are laid out by indentation, innermost first. -/
  indents : List Nat
  /-- The place of a possible key on every level of brackets, innermost first. -/
  keys : List (Option KeyPlace)
  /-- Whether a key may stand here. -/
  keyAllowed : Bool

namespace Scan

def start (cs : List Char) : Scan := ⟨.ofChars cs, [], 0, [], [none], true⟩

def inFlow (s : Scan) : Bool := s.keys.length > 1

/-- The column of the innermost collection that is laid out by indentation; `-1` if none is. -/
def indent (s : Scan) : Int :=
  match s.indents with
  | [] => -1
  | n :: _ => n

def emit (s : Scan) (t : Token) : Scan :=
  { s with tokens := t :: s.tokens, count := s.count + 1 }

/-- Puts a token in after the first `n`. -/
def emitAt (s : Scan) (n : Nat) (t : Token) : Scan :=
  { s with tokens := s.tokens.insertIdx (s.count - n) t, count := s.count + 1 }

def allowKey (s : Scan) (allowed : Bool) : Scan := { s with keyAllowed := allowed }

/-- Begins a collection, after the first `n` tokens, if the column is deeper than those around. -/
def rollIndent (s : Scan) (column n : Nat) (t : Token) : Scan :=
  if s.inFlow || (column : Int) ≤ s.indent then s
  else { s.emitAt n t with indents := column :: s.indents }

/-- Ends the collections that are deeper than a column. -/
def unrollTo (column : Int) (s : Scan) : Scan :=
  if s.inFlow then s
  else
    let ended := s.indents.takeWhile fun (n : Nat) => column < (n : Int)
    { ended.foldl (fun s _ => s.emit .blockEnd) s with indents := s.indents.drop ended.length }

/-- A possible key is none any more on another line or too far behind. Fails if it had to be
one. -/
def expireKey (c : Cursor) : Option KeyPlace → Option (Option KeyPlace)
  | none => some none
  | some k =>
    if k.line = c.line && c.index ≤ k.index + 1024 then some (some k)
    else if k.required then none
    else some none

def expireKeys (s : Scan) : Option Scan := do
  return { s with keys := ← s.keys.mapM (expireKey s.cursor) }

/-- Forgets the possible key on the innermost level. Fails if it had to be one. -/
def dropKey (s : Scan) : Option Scan :=
  match s.keys with
  | some k :: rest => if k.required then none else some { s with keys := none :: rest }
  | _ => some s

/-- Notes that a key may begin here. -/
def noteKey (s : Scan) : Option Scan :=
  if s.keyAllowed then do
    let s ← s.dropKey
    let place : KeyPlace :=
      { tokens := s.count, line := s.cursor.line, column := s.cursor.column
        index := s.cursor.index
        required := !s.inFlow && s.indent = s.cursor.column }
    return { s with keys := some place :: s.keys.tail }
  else some s

/-- Passes characters and puts a token out for them. -/
def mark (s : Scan) (width : Nat) (t : Token) : Scan :=
  { s.emit t with cursor := s.cursor.skip width }

/-- Passes a byte order mark at the start of a line. It takes a column. -/
def skipByteOrderMark (c : Cursor) : Cursor :=
  if c.column = 0 && c.rest.head?.any (fun ch => ch.toNat = 0xFEFF) then c.skip 1 else c

/-- Passes blanks, comments and line breaks. A tab is no blank where a key may stand outside of
brackets. -/
def skipBlanks : Nat → Scan → Scan
  | 0, s => s
  | n + 1, s =>
    let tabs := s.inFlow || !s.keyAllowed
    let c := (skipByteOrderMark s.cursor).skipWhile fun ch => ch = ' ' || (tabs && ch = '\t')
    let c := if c.rest.head? = some '#' then c.skipWhile fun ch => !isBreak ch else c
    if c.rest.head?.any isBreak then
      skipBlanks n { s with cursor := c.breakLine.2, keyAllowed := s.keyAllowed || !s.inFlow }
    else { s with cursor := c }

/-! ## Marks -/

def documentMark (s : Scan) (t : Token) : Option Scan := do
  let s ← (s.unrollTo (-1)).dropKey
  return (s.allowKey false).mark 3 t

def openFlow (s : Scan) (t : Token) : Option Scan := do
  let s ← s.noteKey
  return { s.mark 1 t with keys := none :: s.keys, keyAllowed := true }

/-- A closing bracket; outside of brackets the level stays. -/
def closeFlow (s : Scan) (t : Token) : Option Scan := do
  let s ← s.dropKey
  let keys := if s.inFlow then s.keys.tail else s.keys
  return { s.mark 1 t with keys, keyAllowed := false }

def flowEntry (s : Scan) : Option Scan := do
  let s ← s.dropKey
  return (s.allowKey true).mark 1 .flowEntry

/-- Begins a collection at the place of an explicit mark, where that is allowed. -/
def beginAt (s : Scan) (t : Token) : Option Scan :=
  if s.inFlow then some s
  else if s.keyAllowed then some (s.rollIndent s.cursor.column s.count t)
  else none

def blockEntry (s : Scan) : Option Scan := do
  let s ← (← s.beginAt .blockSeqStart).dropKey
  return (s.allowKey true).mark 1 .blockEntry

def explicitKey (s : Scan) : Option Scan := do
  let s ← (← s.beginAt .blockMapStart).dropKey
  return (s.allowKey (!s.inFlow)).mark 1 .key

/-- A colon: what stands before it is a key if it may be one. -/
def valueMark (s : Scan) : Option Scan :=
  match s.keys with
  | some k :: rest =>
    let s := s.emitAt k.tokens .key
    let s := s.rollIndent k.column k.tokens .blockMapStart
    some ({ s with keys := none :: rest, keyAllowed := false }.mark 1 .value)
  | _ => do
    let s ← s.beginAt .blockMapStart
    return (s.allowKey (!s.inFlow)).mark 1 .value

/-! ## Texts -/

def emitText (s : Scan) (plain : Bool) (text : List Char) (c : Cursor) : Scan :=
  { s.emit (.scalar plain (.ofList text)) with cursor := c }

def block (s : Scan) (folded : Bool) : Option Scan := do
  let s ← s.dropKey
  let (text, c) ← readBlock folded s.indent (s.cursor.skip 1)
  return (s.emitText false text c).allowKey true

def quoted (s : Scan) (quote : Char) : Option Scan := do
  let s ← s.noteKey
  let c := s.cursor.skip 1
  let (text, c) ← readQuoted quote (c.rest.length + 1) [] c
  return (s.emitText false text c).allowKey false

def plain (s : Scan) : Option Scan := do
  let s ← s.noteKey
  let c := s.cursor
  let (text, atLineStart, c) ←
    readPlain s.inFlow (s.indent + 1) (c.rest.length + 1) [] .empty c
  return (s.emitText true text c).allowKey atLineStart

/-- The characters that cannot start a plain text. -/
def isIndicator (c : Char) : Bool :=
  c ∈ ['-', '?', ':', ',', '[', ']', '\x7b', '\x7d', '#', '&', '*', '!', '|', '>', '\'', '"', '%',
    '@', Char.ofNat 96]

/-- Whether a plain text starts here. -/
def startsPlain (inFlow : Bool) (c : Char) (rest : List Char) : Bool :=
  if c = '-' then !rest.head?.any isGap
  else if c = '?' || c = ':' then !inFlow && !atWordEnd rest
  else !isIndicator c && !isGap c

/-- Cuts the next token off. -/
def next (s : Scan) : Option Scan :=
  let c := s.cursor
  match c.rest with
  | [] => none
  | ch :: rest =>
    if c.column = 0 && atDocumentMark '-' c.rest then s.documentMark .documentStart
    else if c.column = 0 && atDocumentMark '.' c.rest then s.documentMark .documentEnd
    else if ch = '[' then s.openFlow .flowSeqStart
    else if ch = '\x7b' then s.openFlow .flowMapStart
    else if ch = ']' then s.closeFlow .flowSeqEnd
    else if ch = '\x7d' then s.closeFlow .flowMapEnd
    else if ch = ',' then s.flowEntry
    else if ch = '-' && atWordEnd rest then s.blockEntry
    else if ch = '?' && (s.inFlow || atWordEnd rest) then s.explicitKey
    else if ch = ':' && (s.inFlow || atWordEnd rest) then s.valueMark
    else if ch = '|' && !s.inFlow then s.block false
    else if ch = '>' && !s.inFlow then s.block true
    else if ch = '\'' || ch = '"' then s.quoted ch
    else if startsPlain s.inFlow ch rest then s.plain
    else none

/-- Ends the document. -/
def finish (s : Scan) : Option (List Token) := do
  let s ← (s.unrollTo (-1)).dropKey
  return s.tokens.reverse

/-- Cuts all tokens off, at most as many as there are characters. -/
def run : Nat → Scan → Option (List Token)
  | 0, _ => none
  | n + 1, s => do
    let s ← (skipBlanks (s.cursor.rest.length + 1) s).expireKeys
    let s := s.unrollTo s.cursor.column
    if s.cursor.rest.isEmpty then s.finish else run n (← s.next)

end Scan

/-- The characters that may stand in a document. -/
def isAllowed (c : Char) : Bool :=
  let n := c.toNat
  n = 0x9 || n = 0xA || n = 0xD || (0x20 ≤ n && n ≤ 0x7E) || n = 0x85
    || (0xA0 ≤ n && n ≤ 0xFFFD) || 0x10000 ≤ n

/-- The tokens of a text. -/
def tokens? (s : String) : Option (List Token) :=
  let cs := s.toList
  if cs.all isAllowed then Scan.run (cs.length + 1) (.start cs) else none

end GameTable.Yaml
