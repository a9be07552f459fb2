/-
  Percent coding.

  Encoding writes every octet of a character that is not safe as a per cent sign and two capital
  hexadecimal digits.  Letters, digits and `_ . - ~` are always safe; a caller may add characters.
  Decoding reads such triples in either case, leaves a per cent sign that starts no triple as it is,
  and reads the octets of each run of ASCII characters as UTF-8.
-/
import StreamResolver.Text.Basic
import StreamResolver.Text.Utf8

namespace StreamResolver.Percent

open Text

/-- Characters that are never encoded. -/
def alwaysSafe (c : Char) : Bool := c.isAlphanum || c == '_' || c == '.' || c == '-' || c == '~'

/-- A capital hexadecimal digit. -/
def hexDigit (d : Nat) : Char := if d < 10 then Char.ofNat (0x30 + d) else Char.ofNat (0x37 + d)

/-- An octet as a per cent sign and two digits. -/
def triple (b : Nat) : List Char := ['%', hexDigit (b / 16), hexDigit (b % 16)]

/-- One character, encoded unless it is safe. -/
def encodeChar (safe : Char → Bool) (c : Char) : List Char :=
  if alwaysSafe c || safe c then [c] else (Utf8.encodeChar c).flatMap triple

/-- A text with all but the safe characters encoded. -/
def encode (safe : Char → Bool) (s : List Char) : List Char := s.flatMap (encodeChar safe)

/-- The value of a hexadecimal digit of either case. -/
def hexValue? (c : Char) : Option Nat :=
  if '0' ≤ c && c ≤ '9' then some (c.toNat - 0x30)
  else if 'a' ≤ c && c ≤ 'f' then some (c.toNat - 0x57)
  else if 'A' ≤ c && c ≤ 'F' then some (c.toNat - 0x37)
  else none

/-- The octet of the two digits at the start of a text. -/
def pair? : List Char → Option Nat
  | a :: b :: _ => do return (← hexValue? a) * 16 + (← hexValue? b)
  | _ => none

/-- Decode a text: `octets` are the octets of the ASCII run before it, and `skip` counts the digits of
    a triple that is already read. -/
def decodeFrom : Nat → List Nat → List Char → List Char
  | _, octets, [] => Utf8.decode octets
  | skip + 1, octets, _ :: rest => decodeFrom skip octets rest
  | 0, octets, c :: rest =>
    if c.toNat < 0x80 then
      match (if c = '%' then pair? rest else none) with
      | some b => decodeFrom 2 (octets ++ [b]) rest
      | none => decodeFrom 0 (octets ++ [c.toNat]) rest
    else Utf8.decode octets ++ c :: decodeFrom 0 [] rest

/-- A text with its percent coding undone. -/
def decode (s : List Char) : List Char := decodeFrom 0 [] s

/-- A text as one part of a path; slashes are kept. -/
def encodePath (s : List Char) : List Char := encode (· == '/') s

example : encodePath ['a', '/', ' ', 'é'] = "a/%20%C3%A9".toList := by decide
example : decode "%C3%A9%zz%4".toList = "é%zz%4".toList := by decide

end StreamResolver.Percent
