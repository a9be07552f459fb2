/-
  The text of a value.

  A value that should have been a text still has one: null, truth values and numbers have fixed
  spellings, and lists and objects are written with their parts quoted.  A quoted text stands between
  apostrophes, or between quotation marks when it holds an apostrophe and no quotation mark; the
  backslash and the chosen quote are escaped, line breaks and tabs have short escapes, and every other
  character without a printed form is written by its code point with two, four or eight hexadecimal
  digits.
-/
import StreamResolver.Value.Basic
import StreamResolver.Number.Decimal

namespace StreamResolver

namespace Text

/-! ## Quoted text -/

/-- A hexadecimal digit in lower case. -/
def hexDigit (d : Nat) : Char := if d < 10 then Char.ofNat (0x30 + d) else Char.ofNat (0x57 + d)

/-- The last `width` hexadecimal digits of a number. -/
def hex : Nat → Nat → List Char
  | 0, _ => []
  | width + 1, n => hex width (n / 16) ++ [hexDigit (n % 16)]

/-- One character inside quotes. -/
def quoteChar (quote c : Char) : List Char :=
  if c = quote || c = '\\' then ['\\', c]
  else if c = '\n' then ['\\', 'n']
  else if c = '\r' then ['\\', 'r']
  else if c = '\t' then ['\\', 't']
  else if isPrintable c then [c]
  else if c.toNat < 0x100 then '\\' :: 'x' :: hex 2 c.toNat
  else if c.toNat < 0x10000 then '\\' :: 'u' :: hex 4 c.toNat
  else '\\' :: 'U' :: hex 8 c.toNat

/-- The quotation mark for a text: an apostrophe unless only that one stands in it. -/
def quoteFor (s : List Char) : Char := if s.contains '\'' && !s.contains '"' then '"' else '\''

/-- A text between quotes. -/
def quoted (s : List Char) : List Char :=
  let quote := quoteFor s
  quote :: s.flatMap (quoteChar quote) ++ [quote]

end Text

namespace Value

open Text

mutual
/-- The text of a value as a part of a list or an object. -/
def inner : Value → List Char
  | .null => "None".toList
  | .bool true => "True".toList
  | .bool false => "False".toList
  | .int n => integerText n
  | .float x => x.text
  | .str s => quoted s.toList
  | .list items => '[' :: innerItems items ++ [']']
  | .object fields => '\x7b' :: innerFields fields ++ ['\x7d']

/-- List items with a comma and a space between them. -/
def innerItems : List Value → List Char
  | [] => []
  | [v] => v.inner
  | v :: w :: rest => v.inner ++ ',' :: ' ' :: innerItems (w :: rest)

/-- Object fields as quoted key, colon, value. -/
def innerFields : List (String × Value) → List Char
  | [] => []
  | [(k, v)] => quoted k.toList ++ ':' :: ' ' :: v.inner
  | (k, v) :: f :: rest =>
    quoted k.toList ++ ':' :: ' ' :: v.inner ++ ',' :: ' ' :: innerFields (f :: rest)
end

/-- The text of a value; a text is itself, without quotes. -/
def display : Value → String
  | .str s => s
  | v => String.ofList v.inner

example : quoted ['i', 't', '\'', 's'] = ['"', 'i', 't', '\'', 's', '"'] := by decide
example : quoted ['a', '\x85'] = ['\'', 'a', '\\', 'x', '8', '5', '\''] := by decide +kernel

end Value

end StreamResolver
