/-
  A position in a YAML text.

  Reading YAML needs to know how far from the margin a character stands, so a cursor carries the
  column and the line next to the text that is left.  The end of a text reads as NUL, which no YAML
  text holds; looking ahead is thereby total and needs no test for the end.

  `Scan` is a computation that moves a cursor and may fail.  Line ends are unified before a text is
  read, so a line ends with a line feed, with NEL, or with one of the two separators; only the
  separators keep their identity inside a scalar.
-/
import StreamResolver.Text.Basic

namespace StreamResolver.Yaml

/-- Why a text is no YAML document, or not one that can be read. -/
inductive Error where
  /-- The text breaks a rule of the format. -/
  | malformed
  /-- A scalar is marked as a number or a date and is none. -/
  | unreadable
  /-- A scalar is marked as a number and is empty. -/
  | emptyNumber
  /-- A scalar is marked as a truth value and is none. -/
  | notTruth
  /-- A scalar is marked as a moment and does not look like one. -/
  | notMoment
  /-- An escape names a character beyond the last one. -/
  | noSuchCharacter
  /-- An escape names a character number beyond 31 bits. -/
  | characterOverflow
  deriving DecidableEq, Repr

/-! ## Characters -/

/-- What stands behind the last character of a text. -/
def endMark : Char := '\x00'

/-- Whether a line ends with this character. -/
def isBreak (c : Char) : Bool :=
  c == '\n' || c.toNat == 0x85 || c.toNat == 0x2028 || c.toNat == 0x2029

/-- A space or a tab. -/
def isGap (c : Char) : Bool := c == ' ' || c == '\t'

/-- The end of a line or of the text. -/
def endsLine (c : Char) : Bool := c == endMark || isBreak c

/-- The end of a line or of the text, or a space. -/
def endsField (c : Char) : Bool := c == ' ' || endsLine c

/-- The end of a line or of the text, a space or a tab. -/
def separates (c : Char) : Bool := isGap c || endsLine c

/-- A letter, a digit, a hyphen or an underscore of ASCII. -/
def isNameChar (c : Char) : Bool := c.isAlphanum || c == '-' || c == '_'

/-- The mark that may stand at the start of a text and takes no column. -/
def orderMark : Char := Char.ofNat 0xfeff

/-- Whether a character may stand in a YAML text. -/
def isAllowed (c : Char) : Bool :=
  let n := c.toNat
  c == '\t' || c == '\n' || c == '\r' || (0x20 ≤ n && n ≤ 0x7e) || n == 0x85 ||
    (0xa0 ≤ n && n ≤ 0xd7ff) || (0xe000 ≤ n && n ≤ 0xfffd) || 0x10000 ≤ n

/-! ## Cursors -/

/-- A position: the text that is left, and how it was reached. -/
structure Cursor where
  rest : List Char
  /-- Characters passed. -/
  index : Nat := 0
  line : Nat := 0
  column : Nat := 0
  deriving DecidableEq, Repr

namespace Cursor

/-- The character `k` places ahead. -/
def ahead (c : Cursor) (k : Nat) : Char := c.rest.getD k endMark

/-- The next character. -/
def head (c : Cursor) : Char := c.ahead 0

/-- Pass one character. -/
def step (c : Cursor) : Cursor :=
  match c.rest with
  | [] => c
  | x :: rest =>
    if isBreak x then ⟨rest, c.index + 1, c.line + 1, 0⟩
    else ⟨rest, c.index + 1, c.line, if x == orderMark then c.column else c.column + 1⟩

/-- Pass `n` characters. -/
def advance : Nat → Cursor → Cursor
  | 0, c => c
  | n + 1, c => advance n c.step

/-- Whether one of the markers `---` and `...` stands next, followed by a separator. -/
def atMarker (c : Cursor) : Bool :=
  (c.rest.take 3 == ['-', '-', '-'] || c.rest.take 3 == ['.', '.', '.']) && separates (c.ahead 3)

end Cursor

/-- A computation that reads at a cursor. -/
abbrev Scan := StateT Cursor (Except Error)

namespace Scan

/-- Break a rule of the format. -/
def malformed {α : Type} : Scan α := throw .malformed

/-- The character `k` places ahead. -/
def peek (k : Nat) : Scan Char := do return (← get).ahead k

/-- Pass `n` characters. -/
def skip (n : Nat) : Scan Unit := modify (Cursor.advance n)

/-- Pass the next `n` characters and give them. -/
def take (n : Nat) : Scan (List Char) := fun c => .ok (c.rest.take n, c.advance n)

/-- Pass the characters that satisfy `p` and give them. -/
def takeWhile (p : Char → Bool) : Scan (List Char) := fun c =>
  let s := c.rest.takeWhile p
  .ok (s, c.advance s.length)

/-- Fail unless the next character satisfies `p`. -/
def expectAhead (p : Char → Bool) : Scan Unit := do
  unless p (← peek 0) do malformed

/-- Pass one line end, if one stands next, and give its text: a line feed for all but the two
    separators. -/
def lineBreak : Scan (List Char) := do
  let c ← peek 0
  if !isBreak c then return []
  skip 1
  return [if c.toNat == 0x85 then '\n' else c]

/-- Enough steps for a loop that passes a character in each. -/
def steps : Scan Nat := do return (← get).rest.length + 2

/-- Pass a comment, if one stands next. -/
def comment : Scan Unit := do
  if (← peek 0) == '#' then let _ ← takeWhile (!endsLine ·)

end Scan

/-- How a line end inside a scalar is folded: a single line feed becomes a space, and of several
    the first is dropped. -/
def fold (first more : List Char) : List Char :=
  (if first != ['\n'] then first else if more.isEmpty then [' '] else []) ++ more

end StreamResolver.Yaml
