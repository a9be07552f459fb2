/-
  From columns to tokens.

  Two things about a YAML text are not visible at the character where they happen.  A block starts
  where something stands further from the margin than the block around it, and ends where something
  stands nearer; and a scalar turns out to be a key only when the colon behind it is met.

  The first needs the columns of the open blocks: `floor` is the column at which the content of the
  innermost one must stand at least, 0 outside of every block.  The second needs, for each level of
  brackets, the place in the token list where a key may have started; at a colon the token for the key
  is put there afterwards.  A key fits on one line and into 1024 characters.

  What cannot be read further ends the token list with a token that says so, because a fault in the
  text is met only by a reader who gets there.
-/
import StreamResolver.Yaml.ScalarText
import StreamResolver.Yaml.Token

namespace StreamResolver.Yaml

/-- A place where a key may have started. -/
structure KeyStart where
  /-- The number of tokens in front of it. -/
  token : Nat
  /-- Whether it must be a key, since it stands where a key of the block stands. -/
  required : Bool
  place : Cursor

/-- What is known between two tokens. -/
structure Layout where
  place : Cursor
  /-- The number of open brackets. -/
  depth : Nat := 0
  /-- The least column of content of the innermost block. -/
  floor : Nat := 0
  /-- The same of the blocks around it. -/
  outer : List Nat := []
  /-- Whether a key may start here. -/
  keyAllowed : Bool := true
  /-- Where a key may have started, by the number of open brackets. -/
  starts : List (Nat × KeyStart) := []
  /-- The tokens so far, the last one first. -/
  tokens : List Token := []

/-- A computation that adds tokens. -/
abbrev Layouting := StateT Layout (Except Error)

namespace Layout

/-- Read at the cursor. -/
def scan {α : Type} (p : Scan α) : Layouting α := fun l => do
  let (a, place) ← p l.place
  return (a, { l with place })

/-- Add a token. -/
def add (t : Token) : Layouting Unit := modify fun l => { l with tokens := t :: l.tokens }

/-- Whether the reader is outside of brackets. -/
def inBlock : Layouting Bool := do return (← get).depth == 0

/-- Put tokens behind the first `n` ones. -/
def insertAt (n : Nat) (new : List Token) : Layouting Unit := modify fun l =>
  let later := l.tokens.length - n
  { l with tokens := l.tokens.take later ++ new.reverse ++ l.tokens.drop later }

/-! ## Blocks -/

/-- Close the blocks whose content must stand further from the margin than `floor`. -/
def closeBlocks (floor : Nat) : List Nat → Layout → Layout
  | [], l => l
  | o :: outer, l =>
    if floor < l.floor then
      closeBlocks floor outer
        { l with floor := o, outer, tokens := .blockEnd :: l.tokens }
    else l

/-- Come to a column: close the blocks that it stands outside of. -/
def comeTo (floor : Nat) : Layouting Unit := do
  if ← inBlock then modify fun l => closeBlocks floor l.outer l

/-- Open a block at a column if it stands far enough from the margin; whether it does. -/
def openBlock (column : Nat) : Layouting Bool := do
  let l ← get
  if column < l.floor then return false
  set { l with floor := column + 1, outer := l.floor :: l.outer }
  return true

/-! ## Keys -/

/-- Forget where a key may have started on this level; it must not be required. -/
def dropStart : Layouting Unit := do
  let l ← get
  match l.starts.lookup l.depth with
  | some s =>
    if s.required then throw .malformed
    set { l with starts := l.starts.filter (·.1 != l.depth) }
  | none => return ()

/-- Note that a key may start here. -/
def noteStart : Layouting Unit := do
  let l ← get
  if l.keyAllowed then
    dropStart
    let start : KeyStart :=
      { token := l.tokens.length, place := l.place
        required := l.depth == 0 && l.floor == l.place.column + 1 }
    modify fun l => { l with starts := (l.depth, start) :: l.starts }

/-- Forget the starts that can no longer be keys. -/
def dropStale : Layouting Unit := do
  let l ← get
  let isStale (s : KeyStart) : Bool :=
    s.place.line != l.place.line || l.place.index > s.place.index + 1024
  if l.starts.any fun s => isStale s.2 && s.2.required then throw .malformed
  set { l with starts := l.starts.filter fun s => !isStale s.2 }

def allowKey (b : Bool) : Layouting Unit := modify fun l => { l with keyAllowed := b }

/-! ## Tokens -/

/-- Pass what stands between two tokens; behind a line end outside of brackets a key may start. -/
def passGap : Nat → Layouting Unit
  | 0 => return ()
  | fuel + 1 => do
    let _ ← scan (Scan.takeWhile (· == ' '))
    scan Scan.comment
    let b ← scan Scan.lineBreak
    if !b.isEmpty then
      if ← inBlock then allowKey true
      passGap fuel

/-- A token that cannot be or start a key, of `width` characters. -/
def mark (t : Token) (width : Nat) (thenKey : Bool) : Layouting Unit := do
  dropStart
  allowKey thenKey
  scan (Scan.skip width)
  add t

/-- The end of the text, a directive or a marker closes all blocks. -/
def closeAll : Layouting Unit := do
  comeTo 0
  dropStart
  allowKey false

/-- An opening bracket. -/
def openBracket (t : Token) : Layouting Unit := do
  noteStart
  modify fun l => { l with depth := l.depth + 1, keyAllowed := true }
  scan (Scan.skip 1)
  add t

/-- A closing bracket. -/
def closeBracket (t : Token) : Layouting Unit := do
  dropStart
  modify fun l => { l with depth := l.depth - 1, keyAllowed := false }
  scan (Scan.skip 1)
  add t

/-- A token that may be or start a key. -/
def possibleKey (p : Scan Token) : Layouting Unit := do
  noteStart
  allowKey false
  add (← scan p)

/-- The hyphen or question mark in front of an item or key, which may open a block. -/
def indicator (opening t : Token) (thenKey : Bool) : Layouting Unit := do
  if ← inBlock then
    if !(← get).keyAllowed then throw .malformed
    if ← openBlock (← get).place.column then add opening
  mark t 1 thenKey

/-- The colon in front of a value.  If a key may have started on this level, it did. -/
def valueSign : Layouting Unit := do
  let l ← get
  match l.starts.lookup l.depth with
  | some s =>
    set { l with starts := l.starts.filter (·.1 != l.depth), keyAllowed := false }
    let opens ← if ← inBlock then openBlock s.place.column else pure false
    insertAt s.token (if opens then [.blockMappingStart, .key] else [.key])
    scan (Scan.skip 1)
    add .value
  | none => indicator .blockMappingStart .value (← inBlock)

/-- A plain scalar. -/
def plainScalar : Layouting Unit := do
  noteStart
  let l ← get
  let (text, crossed) ← scan (Scan.plain (l.depth != 0) l.floor)
  allowKey crossed
  add (.scalar true text)

/-- A block scalar. -/
def blockScalar (folded : Bool) : Layouting Unit := do
  dropStart
  allowKey true
  add (.scalar false (← scan (Scan.block folded (← get).floor)))

/-- The signs that cannot start a plain scalar. -/
def signs : List Char :=
  ['-', '?', ':', ',', '[', ']', '{', '}', '#', '&', '*', '!', '|', '>', '\'', '"', '%', '@', '`']

/-- The next token, or the start of one. -/
def next : Layouting Unit := do
  passGap ((← get).place.rest.length + 1)
  dropStale
  comeTo ((← get).place.column + 1)
  let c := (← get).place
  let block ← inBlock
  let apart := separates (c.ahead 1)
  let x := c.head
  if x == endMark then
    closeAll
    add .streamEnd
  else if x == '%' && c.column == 0 then
    closeAll
    add (← scan Scan.directive)
  else if c.column == 0 && c.atMarker then
    closeAll
    scan (Scan.skip 3)
    add (if x == '-' then .documentStart else .documentEnd)
  else if x == '[' then openBracket .flowSequenceStart
  else if x == '{' then openBracket .flowMappingStart
  else if x == ']' then closeBracket .flowSequenceEnd
  else if x == '}' then closeBracket .flowMappingEnd
  else if x == ',' then mark .flowEntry 1 true
  else if x == '-' && apart then indicator .blockSequenceStart .blockEntry true
  else if x == '?' && (!block || apart) then indicator .blockMappingStart .key block
  else if x == ':' && (!block || apart) then valueSign
  else if x == '*' then possibleKey do return .alias (← Scan.nodeName)
  else if x == '&' then possibleKey do return .anchor (← Scan.nodeName)
  else if x == '!' then possibleKey Scan.tag
  else if (x == '|' || x == '>') && block then blockScalar (x == '>')
  else if x == '\'' || x == '"' then possibleKey do return .scalar false (← Scan.quoted)
  else if !(separates x || signs.contains x) ||
      (!apart && (x == '-' || (block && (x == '?' || x == ':')))) then plainScalar
  else throw .malformed

/-- The tokens from here on; `fuel` bounds their number. -/
def run : Nat → Layout → List Token
  | 0, l => (.broken .malformed :: l.tokens).reverse
  | fuel + 1, l =>
    match next l with
    | .error e => (.broken e :: l.tokens).reverse
    | .ok ((), l) => if l.tokens.head? == some .streamEnd then l.tokens.reverse else run fuel l

end Layout

/-- The tokens of a text. -/
def tokens (text : List Char) : List Token :=
  if !text.all isAllowed then [.broken .malformed]
  else
    let text := match text with | c :: rest => if c == orderMark then rest else text | [] => []
    Layout.run (text.length + 2) { place := { rest := text } }

end StreamResolver.Yaml
