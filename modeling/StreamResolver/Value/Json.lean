/-
  Reading JSON text.

  The grammar is JSON's, with three liberties that servers take: `NaN`, `Infinity` and `-Infinity`
  are numbers, an object may name a key twice (the last value counts), and a lone surrogate escape
  stands for the replacement character.  A number without point and exponent is an integer of any
  size up to 4300 digits; with one it is the nearest binary64 number.  Control characters below
  U+0020 must be escaped inside texts.

  The reader is recursive descent over the list of characters.  Every value consumes at least one
  character, so twice the length of the text bounds the depth of the calls; `Value.ofJson?` computes
  that bound and demands that nothing but blanks is left over.
-/
import StreamResolver.Value.Basic
import StreamResolver.Text.Numeral

namespace StreamResolver.Json

open Text

/-! ## Blanks, literals, numbers -/

/-- A blank between tokens. -/
def isSpace (c : Char) : Bool := c == ' ' || c == '\t' || c == '\n' || c == '\r'

/-- Drop the blanks before a token. -/
def skipSpace (s : List Char) : List Char := s.dropWhile isSpace

/-- A run of ASCII digits as values, and what follows it. -/
def digits (s : List Char) : List Nat × List Char :=
  ((s.takeWhile Char.isDigit).map fun c => c.toNat - 0x30, s.dropWhile Char.isDigit)

/-- The fraction of a number: a point and at least one digit, else nothing. -/
def fraction (s : List Char) : Option (List Nat) × List Char :=
  match s with
  | '.' :: rest =>
    match digits rest with
    | ([], _) => (none, s)
    | (ds, rest) => (some ds, rest)
  | _ => (none, s)

/-- The exponent of a number: its mark, an optional sign and at least one digit, else nothing. -/
def exponent (s : List Char) : Option Int × List Char :=
  match s with
  | c :: rest =>
    if c == 'e' || c == 'E' then
      let (negative, body) := takeSign rest
      match digits body with
      | ([], _) => (none, s)
      | (ds, rest) => (some (withSign negative (valueOf ds)), rest)
    else (none, s)
  | [] => (none, s)

/-- A number after its sign: no leading zero before another digit is taken. -/
def number (negative : Bool) (s : List Char) : Option (Value × List Char) :=
  let (whole, rest) := match s with
    | '0' :: rest => ([0], rest)
    | _ => digits s
  if whole.isEmpty then none
  else
    let (frac, rest) := fraction rest
    let (power, rest) := exponent rest
    if frac.isNone && power.isNone then
      if whole.length > maxDigits then none
      else some (.int (withSign negative (valueOf whole)), rest)
    else
      let frac := frac.getD []
      let power := power.getD 0 - (frac.length : Int)
      some (.float (.ofDecimal negative (valueOf (whole ++ frac)) power), rest)

/-! ## Texts -/

/-- The value of a hexadecimal digit. -/
def hexValue? (c : Char) : Option Nat :=
  if '0' ≤ c && c ≤ '9' then some (c.toNat - 0x30)
  else if 'a' ≤ c && c ≤ 'f' then some (c.toNat - 0x57)
  else if 'A' ≤ c && c ≤ 'F' then some (c.toNat - 0x37)
  else none

/-- Four hexadecimal digits as a number. -/
def hex4? (a b c d : Char) : Option Nat := do
  let a ← hexValue? a
  let b ← hexValue? b
  let c ← hexValue? c
  let d ← hexValue? d
  return ((a * 16 + b) * 16 + c) * 16 + d

/-- The character of a one-letter escape. -/
def shortEscape? : Char → Option Char
  | '"' => some '"'
  | '\\' => some '\\'
  | '/' => some '/'
  | 'b' => some '\x08'
  | 'f' => some '\x0c'
  | 'n' => some '\n'
  | 'r' => some '\r'
  | 't' => some '\t'
  | _ => none

/-- The character of a code unit; a surrogate on its own becomes the replacement character. -/
def unitChar (u : Nat) : Char :=
  if 0xd800 ≤ u && u < 0xe000 then Char.ofNat 0xfffd else Char.ofNat u

/-- The low half of a surrogate pair, when it follows. -/
def lowSurrogate? : List Char → Option (Nat × List Char)
  | '\\' :: 'u' :: a :: b :: c :: d :: rest =>
    match hex4? a b c d with
    | some u => if 0xdc00 ≤ u && u < 0xe000 then some (u, rest) else none
    | none => none
  | _ => none

/-- The characters of a text up to its closing quotation mark, and what follows it. -/
def textBody : Nat → List Char → Option (List Char × List Char)
  | 0, _ => none
  | fuel + 1, s =>
    match s with
    | [] => none
    | '"' :: rest => some ([], rest)
    | '\\' :: 'u' :: a :: b :: c :: d :: rest =>
      match hex4? a b c d with
      | none => none
      | some u =>
        match (if 0xd800 ≤ u && u < 0xdc00 then lowSurrogate? rest else none) with
        | some (v, rest) =>
          (textBody fuel rest).map fun (body, rest) =>
            (Char.ofNat (0x10000 + (u - 0xd800) * 0x400 + (v - 0xdc00)) :: body, rest)
        | none => (textBody fuel rest).map fun (body, rest) => (unitChar u :: body, rest)
    | '\\' :: c :: rest =>
      match shortEscape? c with
      | some e => (textBody fuel rest).map fun (body, rest) => (e :: body, rest)
      | none => none
    | c :: rest =>
      if c == '\\' || c.toNat < 0x20 then none
      else (textBody fuel rest).map fun (body, rest) => (c :: body, rest)

/-- The body of a text after its opening quotation mark. -/
def text (s : List Char) : Option (List Char × List Char) := textBody (s.length + 1) s

/-! ## Values -/

/-- The spellings that stand for a value as they are. -/
def literals : List (List Char × Value) :=
  [("null".toList, .null), ("true".toList, .bool true), ("false".toList, .bool false),
   ("NaN".toList, .float .nan), ("Infinity".toList, .float (.infinity false)),
   ("-Infinity".toList, .float (.infinity true))]

/-- A literal at the start of the text. -/
def literal (s : List Char) : Option (Value × List Char) :=
  literals.findSome? fun (name, v) => (dropFront? name s).map fun rest => (v, rest)

mutual
/-- One value at the start of the text. -/
def value : Nat → List Char → Option (Value × List Char)
  | 0, _ => none
  | fuel + 1, s =>
    match s with
    | '"' :: rest => (text rest).map fun (body, rest) => (.ofChars body, rest)
    | '[' :: rest =>
      match skipSpace rest with
      | ']' :: rest => some (.list [], rest)
      | rest => (items fuel rest).map fun (vs, rest) => (.list vs, rest)
    | '\x7b' :: rest =>
      match skipSpace rest with
      | '\x7d' :: rest => some (.object [], rest)
      | rest => (fields fuel rest).map fun (fs, rest) => (.object (Keyed.ofEntries fs), rest)
    | s =>
      match literal s with
      | some found => some found
      | none =>
        match s with
        | '-' :: rest => number true rest
        | s => number false s

/-- The items of a list up to its closing bracket. -/
def items : Nat → List Char → Option (List Value × List Char)
  | 0, _ => none
  | fuel + 1, s =>
    match value fuel s with
    | none => none
    | some (v, rest) =>
      match skipSpace rest with
      | ']' :: rest => some ([v], rest)
      | ',' :: rest => (items fuel (skipSpace rest)).map fun (vs, rest) => (v :: vs, rest)
      | _ => none

/-- The fields of an object up to its closing brace. -/
def fields : Nat → List Char → Option (List (String × Value) × List Char)
  | 0, _ => none
  | fuel + 1, s =>
    match s with
    | '"' :: rest =>
      match text rest with
      | none => none
      | some (key, rest) =>
        match skipSpace rest with
        | ':' :: rest =>
          match value fuel (skipSpace rest) with
          | none => none
          | some (v, rest) =>
            match skipSpace rest with
            | '\x7d' :: rest => some ([(String.ofList key, v)], rest)
            | ',' :: rest =>
              (fields fuel (skipSpace rest)).map fun (fs, rest) =>
                ((String.ofList key, v) :: fs, rest)
            | _ => none
        | _ => none
    | _ => none
end

end StreamResolver.Json

namespace StreamResolver

/-- The value of a JSON text; nothing but blanks may stand around it. -/
def Value.ofJson? (s : List Char) : Option Value :=
  match Json.value (2 * (s.length + 1)) (Json.skipSpace s) with
  | some (v, rest) => if (Json.skipSpace rest).isEmpty then some v else none
  | none => none

end StreamResolver
