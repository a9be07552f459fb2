/-
  Internet addresses in brackets.

  A host in brackets must be an IPv6 address, perhaps with a zone, or an address of a future version
  (`v1.x`).  An IPv6 address is eight groups of up to four hexadecimal digits; one run of groups may
  be left out (`::`), and the last two may be written as an IPv4 address.
-/
import StreamResolver.Text.Basic
import StreamResolver.Text.Numeral

namespace StreamResolver.Address

open Text

/-- Whether a character is a hexadecimal digit. -/
def isHex (c : Char) : Bool := c.isDigit || ('a' ≤ c && c ≤ 'f') || ('A' ≤ c && c ≤ 'F')

/-- A group of an IPv6 address. -/
def isGroup (s : List Char) : Bool := !s.isEmpty && s.length ≤ 4 && s.all isHex

/-- A number of an IPv4 address: up to 255, without leading zeros. -/
def isOctet (s : List Char) : Bool :=
  !s.isEmpty && s.length ≤ 3 && s.all Char.isDigit && (s.length == 1 || s.head? != some '0') &&
    valueOf (s.map fun c => c.toNat - 0x30) ≤ 255

/-- An IPv4 address. -/
def isIPv4 (s : List Char) : Bool := (splitOn '.' s).length == 4 && (splitOn '.' s).all isOctet

/-- The groups of an IPv6 address, an IPv4 address at the end counting as two. -/
def groups? (s : List Char) : Option (List (List Char)) :=
  let parts := splitOn ':' s
  if parts.length < 3 then none
  else match parts.getLast? with
    | some last =>
      if last.contains '.' then
        if isIPv4 last then some (parts.dropLast ++ [['0'], ['0']]) else none
      else some parts
    | none => none

/-- Where a run of groups is left out: the empty groups that are neither first nor last. -/
def gaps (parts : List (List Char)) : List Nat :=
  (List.range parts.length).filter fun i =>
    0 < i && i + 1 < parts.length && (parts[i]?.any List.isEmpty)

/-- An IPv6 address without a zone. -/
def isPlainIPv6 (s : List Char) : Bool :=
  match groups? s with
  | none => false
  | some parts =>
    if parts.length > 9 then false
    else match gaps parts with
      | [] => parts.length == 8 && parts.all isGroup
      | [i] =>
        let front := parts.take i
        let back := parts.drop (i + 1)
        let front' := if front.head?.any List.isEmpty then front.drop 1 else front
        let back' := if back.getLast?.any List.isEmpty then back.dropLast else back
        (front' == front || front'.isEmpty) && (back' == back || back'.isEmpty) &&
          front'.all isGroup && back'.all isGroup && front'.length + back'.length < 8
      | _ => false

/-- An IPv6 address, perhaps with a zone behind a per cent sign. -/
def isIPv6 (s : List Char) : Bool :=
  !s.contains '/' &&
    match cutAt '%' s with
    | (address, none) => isPlainIPv6 address
    | (address, some zone) => !zone.isEmpty && !zone.contains '%' && isPlainIPv6 address

/-- An address of a future version: `v`, hexadecimal digits, a point and more on one line. -/
def isFuture (s : List Char) : Bool :=
  match s with
  | 'v' :: rest =>
    let version := rest.takeWhile isHex
    match rest.dropWhile isHex with
    | '.' :: tail => !version.isEmpty && !tail.isEmpty && !tail.contains '\n'
    | _ => false
  | _ => false

/-- Whether a text may stand in brackets as a host. -/
def isBracketed (s : List Char) : Bool := if s.head? == some 'v' then isFuture s else isIPv6 s

example : isIPv6 "::1".toList = true ∧ isIPv6 "1:2::3:1.2.3.4".toList = true ∧
    isIPv6 "1::2::3".toList = false ∧ isIPv6 ":1:2:3:4:5:6:7:8".toList = false := by decide

end StreamResolver.Address
