/-
  Writing values as JSON.

  The text is plain ASCII: every other character is escaped by its UTF-16 units.  A comma and a colon
  are followed by a space; numbers have their decimal text, and the numbers without one are written
  as `NaN`, `Infinity` and `-Infinity`, which the reader takes back.
-/
import StreamResolver.Value.Display

namespace StreamResolver

namespace Json

open Text

/-- An escape by one UTF-16 unit. -/
def unitEscape (u : Nat) : List Char := '\\' :: 'u' :: hex 4 u

/-- One character of a text. -/
def writeChar (c : Char) : List Char :=
  if c = '"' then ['\\', '"']
  else if c = '\\' then ['\\', '\\']
  else if c = '\n' then ['\\', 'n']
  else if c = '\r' then ['\\', 'r']
  else if c = '\t' then ['\\', 't']
  else if c = '\x08' then ['\\', 'b']
  else if c = '\x0c' then ['\\', 'f']
  else if 0x20 ≤ c.toNat && c.toNat < 0x7f then [c]
  else if c.toNat < 0x10000 then unitEscape c.toNat
  else
    unitEscape (0xd800 + (c.toNat - 0x10000) / 0x400) ++
      unitEscape (0xdc00 + (c.toNat - 0x10000) % 0x400)

/-- A text between quotation marks. -/
def writeText (s : List Char) : List Char := '"' :: s.flatMap writeChar ++ ['"']

/-- A number. -/
def writeFloat : Binary64 → List Char
  | .nan => "NaN".toList
  | .infinity false => "Infinity".toList
  | .infinity true => "-Infinity".toList
  | x => x.text

mutual
/-- A value. -/
def write : Value → List Char
  | .null => "null".toList
  | .bool true => "true".toList
  | .bool false => "false".toList
  | .int n => integerText n
  | .float x => writeFloat x
  | .str s => writeText s.toList
  | .list items => '[' :: writeItems items ++ [']']
  | .object fields => '\x7b' :: writeFields fields ++ ['\x7d']

/-- The items of a list. -/
def writeItems : List Value → List Char
  | [] => []
  | [v] => write v
  | v :: w :: rest => write v ++ ',' :: ' ' :: writeItems (w :: rest)

/-- The fields of an object. -/
def writeFields : List (String × Value) → List Char
  | [] => []
  | [(k, v)] => writeText k.toList ++ ':' :: ' ' :: write v
  | (k, v) :: f :: rest =>
    writeText k.toList ++ ':' :: ' ' :: write v ++ ',' :: ' ' :: writeFields (f :: rest)
end

end Json

end StreamResolver
