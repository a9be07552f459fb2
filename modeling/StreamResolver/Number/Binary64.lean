/-
  Binary64 numbers, exactly.

  Numbers with a point or an exponent are binary64: they are read from decimal text, compared with
  zero, cut to integers and printed.  All of that is exact integer arithmetic on sign, mantissa and
  exponent, so nothing here depends on the machine's floating point and every definition evaluates in
  a proof.

  A finite number is `± m · 2^e` in its canonical form: `m < 2^53`, `-1074 ≤ e ≤ 971`, and
  `2^52 ≤ m` unless `e = -1074`.  In that form two numbers are the same number exactly when they are
  equal (up to the sign of zero), which is why equality is decidable by comparison of the fields.

  The crux is `ofRatio`: the canonical number nearest to a quotient of naturals, a tie going to the
  even mantissa.  Reading a decimal is rounding its exact value, and so is multiplying.
-/
import StreamResolver.Number.Powers

namespace StreamResolver

/-- A binary64 number. -/
inductive Binary64 where
  | nan
  | infinity (negative : Bool)
  /-- `± mantissa · 2^exponent`, in canonical form. -/
  | finite (negative : Bool) (mantissa : Nat) (exponent : Int)
  deriving DecidableEq, Repr

namespace Binary64

/-! ## Rounding -/

/-- The integer nearest to `num / den`; a tie goes to the even neighbour. -/
def roundDiv (num den : Nat) : Nat :=
  let q := num / den
  let r := num % den
  if 2 * r < den then q else if den < 2 * r then q + 1 else if q % 2 = 0 then q else q + 1

/-- The smallest exponent of a binary64 number. -/
def minExponent : Int := -1074

/-- The largest exponent of a binary64 number. -/
def maxExponent : Int := 971

/-- `num / den` divided by `2^e`, as a quotient of naturals. -/
def scaleDown (num den : Nat) (e : Int) : Nat × Nat :=
  if e < 0 then (num * twoTo (-e).toNat, den) else (num, den * twoTo e.toNat)

/-- The exponent that gives `num / den` a mantissa of 53 bits, or the smallest one there is. -/
def exponentFor (num den : Nat) : Int :=
  let e := (num.log2 : Int) - den.log2 - 52
  let (n, d) := scaleDown num den e
  max minExponent (if n / d < twoTo 52 then e - 1 else e)

/-- The number nearest to `± num / den`; a tie goes to the even mantissa, and what is too large
    becomes infinite. -/
def ofRatio (negative : Bool) (num den : Nat) : Binary64 :=
  if num = 0 then .finite negative 0 minExponent
  else
    let e := exponentFor num den
    let (n, d) := scaleDown num den e
    let m := roundDiv n d
    let (m, e) := if m = twoTo 53 then (twoTo 52, e + 1) else (m, e)
    if e > maxExponent then .infinity negative else .finite negative m e

/-- The number nearest to `± digits · 10^exponent`.  Far outside the range the answer is known without
    computing the power. -/
def ofDecimal (negative : Bool) (digits : Nat) (exponent : Int) : Binary64 :=
  if digits = 0 then .finite negative 0 minExponent
  else if exponent > 310 then .infinity negative
  else if exponent < 0 then
    if (-exponent).toNat > 330 + digits.log2 then .finite negative 0 minExponent
    else ofRatio negative digits (tenTo (-exponent).toNat)
  else ofRatio negative (digits * tenTo exponent.toNat) 1

/-- The number nearest to an integer. -/
def ofInt (n : Int) : Binary64 := ofRatio (n < 0) n.natAbs 1

/-! ## The value -/

/-- The magnitude `mantissa · 2^exponent` as a quotient of naturals. -/
def magnitude (mantissa : Nat) (exponent : Int) : Nat × Nat :=
  if exponent < 0 then (mantissa, twoTo (-exponent).toNat) else (mantissa * twoTo exponent.toNat, 1)

/-- Whether the number is not zero (an undefined number counts as not zero). -/
def isNonzero : Binary64 → Bool
  | .finite _ m _ => m ≠ 0
  | _ => true

/-- The comparison `x ≤ 0`; it fails for the undefined number. -/
def atMostZero : Binary64 → Bool
  | .nan => false
  | .infinity negative => negative
  | .finite negative m _ => negative || m == 0

/-- The integer between zero and the number that is nearest to it. -/
def truncate? : Binary64 → Option Int
  | .finite negative m e =>
    let (num, den) := magnitude m e
    some (if negative then -((num / den : Nat) : Int) else ((num / den : Nat) : Int))
  | _ => none

/-- The integer that the number is, if it is one. -/
def toInt? : Binary64 → Option Int
  | .finite negative m e =>
    let (num, den) := magnitude m e
    if num % den = 0 then
      some (if negative then -((num / den : Nat) : Int) else ((num / den : Nat) : Int))
    else none
  | _ => none

/-- The number with its sign changed. -/
def neg : Binary64 → Binary64
  | .nan => .nan
  | .infinity s => .infinity !s
  | .finite s m e => .finite (!s) m e

example : ofDecimal false 1 (-1) = .finite false 7205759403792794 (-56) := by decide +kernel
example : ofDecimal false 5 (-324) = .finite false 1 (-1074) := by decide +kernel
example : ofDecimal false 1 309 = .infinity false := by decide +kernel
example : (ofDecimal true 29 (-1)).truncate? = some (-2) := by decide +kernel

end Binary64

end StreamResolver
