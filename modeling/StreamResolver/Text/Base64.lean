/-
  Base 64.

  Four characters of 64 stand for three octets.  Reading passes over every other character; the sign
  `=` fills up the last group of four and ends the text there.
-/
import StreamResolver.Text.Basic

namespace StreamResolver.Text.Base64

/-- The six bits of a character. -/
def bits? (c : Char) : Option Nat :=
  if 'A' ≤ c && c ≤ 'Z' then some (c.toNat - 'A'.toNat)
  else if 'a' ≤ c && c ≤ 'z' then some (c.toNat - 'a'.toNat + 26)
  else if '0' ≤ c && c ≤ '9' then some (c.toNat - '0'.toNat + 52)
  else if c == '+' then some 62
  else if c == '/' then some 63
  else none

/-- The octets from here on.  `group` holds the characters of the group so far, and `filled` counts
    the signs that fill it up.  A group that is not filled up is refused. -/
def octets? (group : List Nat) (filled : Nat) : List Char → Option (List Nat)
  | [] => if group.isEmpty then some [] else none
  | c :: rest =>
    if c == '=' then
      if 2 ≤ group.length then
        if 4 ≤ group.length + filled + 1 then some (incomplete group)
        else octets? group (filled + 1) rest
      else octets? group filled rest
    else match bits? c with
      | none => octets? group filled rest
      | some b =>
        match group with
        | [x, y, z] =>
          (octets? [] 0 rest).map
            ([4 * x + y / 16, y % 16 * 16 + z / 4, z % 4 * 64 + b] ++ ·)
        | _ => octets? (group ++ [b]) 0 rest
where
  /-- The octets of a group of two or three characters. -/
  incomplete : List Nat → List Nat
    | [x, y] => [4 * x + y / 16]
    | [x, y, z] => [4 * x + y / 16, y % 16 * 16 + z / 4]
    | _ => []

/-- The octets that a text stands for. -/
def decode? (s : List Char) : Option (List Nat) := octets? [] 0 s

example : decode? ['a', 'G', 'k', '='] = some [0x68, 0x69] := by rfl
example : decode? ['a', 'G', 'k'] = none := by rfl

end StreamResolver.Text.Base64
