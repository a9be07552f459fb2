/-
  The tokens of a YAML text.

  A token is an indicator, a scalar with its text, or a name that is attached to a node.  Blocks have
  no brackets in the text; their start and end are tokens all the same, found from the columns, so a
  tree can be built without looking at columns again.

  This module has the readers of the tokens that consist of names: directives, anchors, aliases, tags.
-/
import StreamResolver.Yaml.Cursor
import StreamResolver.Text.Utf8
import StreamResolver.Value.Json

namespace StreamResolver.Yaml

/-- A token. -/
inductive Token where
  /-- The version that the document asks for; only the first number matters. -/
  | version (major : Nat)
  /-- What a tag handle stands for. -/
  | tagHandle (handle lead : List Char)
  | otherDirective
  | documentStart
  | documentEnd
  | blockSequenceStart
  | blockMappingStart
  | blockEnd
  | flowSequenceStart
  | flowSequenceEnd
  | flowMappingStart
  | flowMappingEnd
  /-- The hyphen in front of an item of a block. -/
  | blockEntry
  /-- The comma between items in brackets. -/
  | flowEntry
  /-- The start of a key. -/
  | key
  /-- The start of a value. -/
  | value
  | alias (name : List Char)
  | anchor (name : List Char)
  /-- A tag: a handle, if it has one, and the rest. -/
  | tag (handle : Option (List Char)) (suffix : List Char)
  | scalar (isPlain : Bool) (text : List Char)
  | streamEnd
  /-- The text cannot be read further. -/
  | broken (e : Error)
  deriving DecidableEq, Repr

namespace Scan

/-! ## Tags -/

/-- A handle of a tag: `!`, `!!` or `!name!`. -/
def tagHandle : Scan (List Char) := do
  expectAhead (· == '!')
  skip 1
  if (← peek 0) == ' ' then return ['!']
  let name ← takeWhile isNameChar
  expectAhead (· == '!')
  skip 1
  return '!' :: name ++ ['!']

/-- Whether a character may stand in a tag. -/
def isTagChar (c : Char) : Bool :=
  c.isAlphanum || "-;/?:@&=+$,_.!~*'()[]%".toList.contains c

/-- A run of percent-coded octets; together they must be UTF-8. -/
def tagOctets : Nat → Scan (List Nat)
  | 0 => return []
  | fuel + 1 => do
    if (← peek 0) != '%' then return []
    skip 1
    match (← take 2).filterMap Json.hexValue? with
    | [a, b] => return (16 * a + b) :: (← tagOctets fuel)
    | _ => malformed

/-- The rest of a tag, with what is percent-coded decoded. -/
def tagChars : Nat → Scan (List Char)
  | 0 => return []
  | fuel + 1 => do
    let run ← takeWhile fun c => isTagChar c && c != '%'
    if (← peek 0) != '%' then return run
    let octets ← tagOctets (← steps)
    let decoded := Text.Utf8.decode octets
    if Text.Utf8.encode decoded != octets then malformed
    return run ++ decoded ++ (← tagChars fuel)

/-- The rest of a tag; it is not empty. -/
def tagSuffix : Scan (List Char) := do
  let s ← tagChars (← steps)
  if s.isEmpty then malformed
  return s

/-- A tag: `!<...>` as it stands, `!` alone, or a handle and the rest. -/
def tag : Scan Token := do
  let next ← peek 1
  let token ← if next == '<' then do
      skip 2
      let s ← tagSuffix
      expectAhead (· == '>')
      skip 1
      pure (Token.tag none s)
    else if separates next then do
      skip 1
      pure (Token.tag none ['!'])
    else do
      let word := ((← get).rest.drop 1).takeWhile (!endsField ·)
      let handle ← if word.contains '!' then tagHandle else do skip 1; pure ['!']
      pure (Token.tag (some handle) (← tagSuffix))
  expectAhead endsField
  return token

/-! ## Anchors and aliases -/

/-- The name behind the sign of an anchor or alias. -/
def nodeName : Scan (List Char) := do
  skip 1
  let name ← takeWhile isNameChar
  if name.isEmpty then malformed
  expectAhead fun c => separates c || ['?', ':', ',', ']', '}', '%', '@', '`'].contains c
  return name

/-! ## Directives -/

/-- A number of a version. -/
def versionNumber : Scan Nat := do
  let digits ← takeWhile Char.isDigit
  if digits.isEmpty then malformed
  return digits.foldl (fun n d => 10 * n + (d.toNat - '0'.toNat)) 0

/-- What a `YAML` directive says. -/
def versionDirective : Scan Token := do
  let _ ← takeWhile (· == ' ')
  let major ← versionNumber
  expectAhead (· == '.')
  skip 1
  let _ ← versionNumber
  expectAhead endsField
  return .version major

/-- What a `TAG` directive says. -/
def handleDirective : Scan Token := do
  let _ ← takeWhile (· == ' ')
  let handle ← tagHandle
  expectAhead (· == ' ')
  let _ ← takeWhile (· == ' ')
  let lead ← tagSuffix
  expectAhead endsField
  return .tagHandle handle lead

/-- A directive, to the end of its line. -/
def directive : Scan Token := do
  skip 1
  let name ← takeWhile isNameChar
  if name.isEmpty then malformed
  expectAhead endsField
  let token ← if name == ['Y', 'A', 'M', 'L'] then versionDirective
    else if name == ['T', 'A', 'G'] then handleDirective
    else do
      let _ ← takeWhile (!endsLine ·)
      pure .otherDirective
  let _ ← takeWhile (· == ' ')
  comment
  expectAhead endsLine
  let _ ← lineBreak
  return token

end Scan

end StreamResolver.Yaml
