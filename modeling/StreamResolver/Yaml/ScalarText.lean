/-
  The text of a scalar: plain, quoted, or as a block.

  Each reader stands at the first character of a scalar and gives its text.  In a plain or quoted
  scalar a single line end counts as a space and further line ends as themselves; in a block the
  line ends are kept, or folded in the same way between lines that start at the margin.

  A plain scalar ends where a mapping, a comment or the next line of an outer block begins; what ends
  it is the only difference between the inside of brackets and the outside.
-/
import StreamResolver.Yaml.Cursor
import StreamResolver.Text.Utf8
import StreamResolver.Value.Json

namespace StreamResolver.Yaml.Scan

/-! ## Plain scalars -/

/-- Whether a plain scalar ends in front of `c`, which `next` follows. -/
def endsPlain (inFlow : Bool) (c next : Char) : Bool :=
  separates c ||
    (c == ':' && (separates next || (inFlow && [',', '[', ']', '{', '}'].contains next))) ||
    (inFlow && [',', '?', '[', ']', '{', '}'].contains c)

/-- The length of the part of a plain scalar up to a gap. -/
def plainRun (inFlow : Bool) : List Char → Nat
  | [] => 0
  | c :: rest => if endsPlain inFlow c (rest.headD endMark) then 0 else plainRun inFlow rest + 1

/-- The further line ends of a gap, and the spaces in front of them; `none` when a document marker
    ends the gap. -/
def furtherBreaks : Nat → Scan (Option (List Char))
  | 0 => return none
  | fuel + 1 => do
    let _ ← takeWhile (· == ' ')
    let b ← lineBreak
    if b.isEmpty then return some []
    if (← get).atMarker then return none
    return (← furtherBreaks fuel).map (b ++ ·)

/-- A gap inside a plain scalar, folded, and whether it crosses the end of a line. -/
def plainGap : Scan (List Char × Bool) := do
  let spaces ← takeWhile (· == ' ')
  let b ← lineBreak
  if b.isEmpty then return (spaces, false)
  if (← get).atMarker then return ([], true)
  match ← furtherBreaks (← steps) with
  | none => return ([], true)
  | some more => return (fold b more, true)

/-- A plain scalar whose lines stand at column `floor` or further; the flag tells that the reader has
    come to another line behind it. -/
def plainLines (inFlow : Bool) (floor : Nat) : Nat → Scan (List Char × Bool)
  | 0 => return ([], false)
  | fuel + 1 => do
    let n := plainRun inFlow (← get).rest
    if (← peek 0) == '#' || n == 0 then return ([], false)
    let run ← take n
    let (gap, crossed) ← plainGap
    let c ← get
    if gap.isEmpty || c.head == '#' || (!inFlow && c.column < floor) then return (run, crossed)
    let (more, crossedLater) ← plainLines inFlow floor fuel
    if more.isEmpty then return (run, crossed)
    return (run ++ gap ++ more, crossedLater)

/-- A plain scalar. -/
def plain (inFlow : Bool) (floor : Nat) : Scan (List Char × Bool) := do
  plainLines inFlow floor (← steps)

/-! ## Quoted scalars -/

/-- The character that a backslash and one letter stand for. -/
def shortEscape? (c : Char) : Option Char :=
  match c with
  | '0' => some '\x00'
  | 'a' => some '\x07'
  | 'b' => some '\x08'
  | 't' | '\t' => some '\t'
  | 'n' => some '\n'
  | 'v' => some '\x0b'
  | 'f' => some '\x0c'
  | 'r' => some '\r'
  | 'e' => some '\x1b'
  | ' ' | '"' | '\\' | '/' => some c
  | 'N' => some (Char.ofNat 0x85)
  | '_' => some (Char.ofNat 0xa0)
  | 'L' => some (Char.ofNat 0x2028)
  | 'P' => some (Char.ofNat 0x2029)
  | _ => none

/-- The number of hexadecimal digits behind a backslash and this letter. -/
def escapeLength? (c : Char) : Option Nat :=
  match c with
  | 'x' => some 2
  | 'u' => some 4
  | 'U' => some 8
  | _ => none

/-- The line ends between two lines of a quoted scalar, and the blanks around them. -/
def quotedBreaks : Nat → Scan (List Char)
  | 0 => malformed
  | fuel + 1 => do
    if (← get).atMarker then malformed
    let _ ← takeWhile isGap
    let b ← lineBreak
    if b.isEmpty then return []
    return b ++ (← quotedBreaks fuel)

/-- The character with a number, which an escape names; half of a pair of units is no character. -/
def numbered (n : Nat) : Scan Char :=
  if 0xd800 ≤ n && n < 0xe000 then return Text.Utf8.replacement
  else if n < 0x110000 then return Char.ofNat n
  else throw (if n < 0x80000000 then .noSuchCharacter else .characterOverflow)

/-- What an escape stands for; the backslash is behind the reader. -/
def escape : Scan (List Char) := do
  let c ← peek 0
  match shortEscape? c, escapeLength? c with
  | some x, _ =>
    skip 1
    return [x]
  | none, some n =>
    skip 1
    let digits := (← take n).filterMap Json.hexValue?
    if digits.length != n then malformed
    return [← numbered (digits.foldl (fun v d => 16 * v + d) 0)]
  | none, none =>
    if !isBreak c then malformed
    let _ ← lineBreak
    quotedBreaks (← steps)

/-- The part of a quoted scalar up to a blank or the closing quote. -/
def quotedRun (double : Bool) : Nat → Scan (List Char)
  | 0 => malformed
  | fuel + 1 => do
    let run ← takeWhile fun c => !(separates c || ['\'', '"', '\\'].contains c)
    let c ← peek 0
    if !double && c == '\'' && (← peek 1) == '\'' then
      skip 2
      return run ++ '\'' :: (← quotedRun double fuel)
    else if (if double then c == '\'' else c == '"' || c == '\\') then
      skip 1
      return run ++ c :: (← quotedRun double fuel)
    else if double && c == '\\' then
      skip 1
      let e ← escape
      return run ++ e ++ (← quotedRun double fuel)
    else return run

/-- A gap inside a quoted scalar, folded. -/
def quotedGap : Scan (List Char) := do
  let blanks ← takeWhile isGap
  if (← peek 0) == endMark then malformed
  let b ← lineBreak
  if b.isEmpty then return blanks
  return fold b (← quotedBreaks (← steps))

/-- What is left of a quoted scalar, the closing quote included. -/
def quotedBody (quote : Char) : Nat → Scan (List Char)
  | 0 => malformed
  | fuel + 1 => do
    let run ← quotedRun (quote == '"') (← steps)
    if (← peek 0) == quote then
      skip 1
      return run
    let gap ← quotedGap
    return run ++ gap ++ (← quotedBody quote fuel)

/-- A quoted scalar. -/
def quoted : Scan (List Char) := do
  let quote ← peek 0
  skip 1
  quotedBody quote (← steps)

/-! ## Blocks -/

/-- Pass spaces up to a column. -/
def spacesUpTo (column : Nat) : Scan Unit := do
  let c ← get
  skip (min (c.rest.takeWhile (· == ' ')).length (column - c.column))

/-- The line ends in front of a line of the block, where lines start at `column`. -/
def blockBreaks (column : Nat) : Nat → Scan (List Char)
  | 0 => return []
  | fuel + 1 => do
    spacesUpTo column
    let b ← lineBreak
    if b.isEmpty then return []
    return b ++ (← blockBreaks column fuel)

/-- The line ends in front of the first line of a block, and the column furthest from the margin
    that was reached. -/
def leadingBreaks : Nat → Nat → Scan (List Char × Nat)
  | 0, furthest => return ([], furthest)
  | fuel + 1, furthest => do
    let _ ← takeWhile (· == ' ')
    let furthest := max furthest (← get).column
    let b ← lineBreak
    if b.isEmpty then return ([], furthest)
    let (more, furthest) ← leadingBreaks fuel furthest
    return (b ++ more, furthest)

/-- The lines of a block with what stands between them, the end of the last line, and the line ends
    behind it. -/
def blockLines (folded : Bool) (column : Nat) :
    Nat → List Char → Scan (List Char × List Char × List Char)
  | 0, breaks => return ([], [], breaks)
  | fuel + 1, breaks => do
    let c ← get
    if c.column != column || c.rest.isEmpty then return ([], [], breaks)
    let line ← takeWhile (!endsLine ·)
    let b ← lineBreak
    let between ← blockBreaks column (← steps)
    let next ← get
    if next.column != column || next.rest.isEmpty then return (breaks ++ line, b, between)
    let atMargin := !isGap c.head && !isGap next.head
    let joint := if folded && b == ['\n'] && atMargin then fold b between else b ++ between
    let (more, last, behind) ← blockLines folded column fuel []
    return (breaks ++ line ++ joint ++ more, last, behind)

/-- What the header of a block says on line ends behind it. -/
inductive Chomping where
  /-- The last line keeps its end, further line ends are dropped. -/
  | clip
  /-- No line end is kept. -/
  | strip
  /-- All line ends are kept. -/
  | keep
  deriving DecidableEq, Repr

/-- A sign of how line ends behind the block are treated. -/
def chompingSign : Scan (Option Chomping) := do
  match ← peek 0 with
  | '+' => skip 1; return some .keep
  | '-' => skip 1; return some .strip
  | _ => return none

/-- The number of columns by which a block is indented, if its header says so. -/
def indentation : Scan (Option Nat) := do
  let c ← peek 0
  if !c.isDigit then return none
  if c == '0' then malformed
  skip 1
  return some (c.toNat - '0'.toNat)

/-- The header of a block, up to the end of its line: the sign and the number in either order. -/
def blockHeader : Scan (Chomping × Option Nat) := do
  let before ← chompingSign
  let columns ← indentation
  let after ← if before.isSome || columns.isNone then pure none else chompingSign
  expectAhead endsField
  let _ ← takeWhile (· == ' ')
  comment
  expectAhead endsLine
  let _ ← lineBreak
  return (((before <|> after).getD .clip), columns)

/-- A block whose lines stand at column `floor` or further. -/
def block (folded : Bool) (floor : Nat) : Scan (List Char) := do
  skip 1
  let (chomping, columns) ← blockHeader
  let least := max floor 1
  let (breaks, column) ← match columns with
    | some n => do pure (← blockBreaks (least + n - 1) (← steps), least + n - 1)
    | none => do
      let (breaks, furthest) ← leadingBreaks (← steps) 0
      pure (breaks, max least furthest)
  let (text, last, behind) ← blockLines folded column (← steps) breaks
  return match chomping with
    | .strip => text
    | .clip => text ++ last
    | .keep => text ++ last ++ behind

end StreamResolver.Yaml.Scan
