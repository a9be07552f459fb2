/-
  Reading binary64 numbers from text.

  A number is written with an optional sign, digits with at most one point among them (at least one
  digit), and an optional exponent; `inf`, `infinity` and `nan` are numbers too, in any case.  Whose
  digits count is a parameter, because some texts may be in the digits of any script and some not.

  Sums and multiples are here as well: a number in base sixty is a sum of multiples, each rounded.
-/
import StreamResolver.Number.Binary64
import StreamResolver.Text.Numeral
import StreamResolver.Text.LetterCase

namespace StreamResolver.Binary64

open Text

/-- The value of an ASCII digit. -/
def asciiDigit (c : Char) : Option Nat :=
  if '0' ≤ c && c ≤ '9' then some (c.toNat - '0'.toNat) else none

/-- A run of digits and what follows it. -/
def takeDigits (value? : Char → Option Nat) : List Char → List Nat × List Char
  | [] => ([], [])
  | c :: rest =>
    match value? c with
    | some d => let (ds, rest) := takeDigits value? rest; (d :: ds, rest)
    | none => ([], c :: rest)

/-- An exponent that takes all of the text; an empty text is the exponent zero. -/
def exponent? (value? : Char → Option Nat) (s : List Char) : Option Int :=
  match s with
  | [] => some 0
  | e :: rest =>
    if e == 'e' || e == 'E' then
      let (negative, rest) := takeSign rest
      match takeDigits value? rest with
      | ([], _) => none
      | (ds, []) => some (withSign negative (valueOf ds))
      | _ => none
    else none

/-- An unsigned number in digits. -/
def unsigned? (value? : Char → Option Nat) (negative : Bool) (s : List Char) : Option Binary64 := do
  let (whole, rest) := takeDigits value? s
  let (part, rest) := match rest with
    | '.' :: rest => takeDigits value? rest
    | _ => ([], rest)
  if whole.isEmpty && part.isEmpty then none
  else return ofDecimal negative (valueOf (whole ++ part)) ((← exponent? value? rest) - part.length)

/-- Read a number. -/
def ofText? (value? : Char → Option Nat) (s : List Char) : Option Binary64 :=
  let (negative, body) := takeSign s
  match String.ofList (lower body) with
  | "inf" | "infinity" => some (.infinity negative)
  | "nan" => some .nan
  | _ => unsigned? value? negative body

/-! ## Sums and multiples -/

/-- `± mantissa` in units of `2^unit`, for a unit that is not above the exponent. -/
def inUnit (negative : Bool) (mantissa : Nat) (exponent unit : Int) : Int :=
  withSign negative (mantissa * twoTo (exponent - unit).toNat)

/-- The number nearest to `n · 2^unit`. -/
def ofUnits (n unit : Int) : Binary64 :=
  if unit < 0 then ofRatio (n < 0) n.natAbs (twoTo (-unit).toNat)
  else ofRatio (n < 0) (n.natAbs * twoTo unit.toNat) 1

/-- The sum of two numbers, rounded. -/
def add : Binary64 → Binary64 → Binary64
  | .nan, _ | _, .nan => .nan
  | .infinity s, .infinity t => if s = t then .infinity s else .nan
  | .infinity s, _ | _, .infinity s => .infinity s
  | .finite s m e, .finite t n f =>
    let unit := min e f
    let sum := inUnit s m e unit + inUnit t n f unit
    if sum = 0 && s && t then .finite true 0 minExponent else ofUnits sum unit

/-- A multiple of a number, rounded; the factor is not zero. -/
def times (x : Binary64) (n : Nat) : Binary64 :=
  match x with
  | .nan => .nan
  | .infinity s => .infinity s
  | .finite s m e => if m = 0 then x else ofUnits (withSign s (m * n)) e

example : ofText? asciiDigit ['-', '1', '.', '5', 'e', '1'] = some (ofInt (-15)) := by rfl
example : (ofText? asciiDigit ['.']) = none := by rfl
example : add (ofInt 3) (ofInt (-5)) = ofInt (-2) := by decide +kernel

end StreamResolver.Binary64
