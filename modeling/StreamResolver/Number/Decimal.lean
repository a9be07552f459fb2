/-
  Decimal text of binary64 numbers.

  Writing takes the fewest digits that read back.  For one, two, … seventeen digits it looks at the
  two neighbours of the number on that decimal grid; the first grid with a neighbour that reads back
  wins, of two the nearer one, and a tie goes to the even digit.  "Reads back" is literally
  `Binary64.ofDecimal`, so the result needs no error analysis.

  The layout of the digits is the second decision: numbers from `10^-4` up to `10^16` are written
  positionally and keep a `.0` when they are whole; the others have an exponent of at least two
  digits with its sign.
-/
import StreamResolver.Number.Binary64
import StreamResolver.Text.Numeral

namespace StreamResolver.Binary64

open Text

/-! ## The fewest digits -/

/-- Whether `num / den < 10^k`. -/
def belowPowerOfTen (num den : Nat) (k : Int) : Bool :=
  if k < 0 then num * tenTo (-k).toNat < den else num < den * tenTo k.toNat

/-- The `x` with `10^x ≤ num / den < 10^(x+1)`, found next to an estimate from the binary lengths. -/
def decimalExponent (num den : Nat) : Int :=
  let estimate := Int.fdiv (((num.log2 : Int) - den.log2) * 30103) 100000
  let guesses := [estimate - 2, estimate - 1, estimate, estimate + 1]
  (guesses.find? fun x => belowPowerOfTen num den (x + 1)).getD (estimate + 2)

/-- `num / den` in units of `10^u`, as a quotient of naturals. -/
def inUnits (num den : Nat) (u : Int) : Nat × Nat :=
  if u < 0 then (num * tenTo (-u).toNat, den) else (num, den * tenTo u.toNat)

/-- The neighbour on the grid of units `10^u` that reads back as the number, if one does; of two the
    nearer one, and the even one of two equally near. -/
def onGrid (m : Nat) (e : Int) (num den : Nat) (u : Int) : Option Nat :=
  let (n, d) := inUnits num den u
  let lo := n / d
  let r := n % d
  let readsBack (k : Nat) : Bool := ofDecimal false k u == .finite false m e
  let loFirst := 2 * r < d || (2 * r == d && lo % 2 == 0)
  let order := if loFirst then [lo, lo + 1] else [lo + 1, lo]
  order.find? readsBack

/-- Drop trailing zeros, counting them into the exponent; `fuel` bounds their number. -/
def dropZeros : Nat → Nat → Int → Nat × Int
  | 0, k, u => (k, u)
  | fuel + 1, k, u => if k ≠ 0 && k % 10 == 0 then dropZeros fuel (k / 10) (u + 1) else (k, u)

/-- The fewest digits, and the power of ten of the last one, of a positive number. -/
def shortest (m : Nat) (e : Int) : Nat × Int :=
  let (num, den) := magnitude m e
  let x := decimalExponent num den
  let attempts := (List.range 17).findSome? fun (i : Nat) =>
    let u := x - (i : Int)
    (onGrid m e num den u).map fun k => (k, u)
  let (k, u) := attempts.getD (0, 0)
  dropZeros 20 k u

/-! ## Layout -/

/-- Where positional notation starts: numbers below `10^-4` have an exponent. -/
def positionalFrom : Int := -4

/-- Where positional notation ends: numbers from `10^16` on have an exponent. -/
def positionalBelow : Int := 16

/-- The text of `digits · 10^u`. -/
def layout (digits : Nat) (u : Int) : List Char :=
  let ds := decimals digits
  let exponent := (ds.length : Int) + u - 1
  if positionalFrom ≤ exponent && exponent < positionalBelow then
    if exponent < 0 then
      '0' :: '.' :: List.replicate (-exponent - 1).toNat '0' ++ ds
    else
      let whole := (exponent + 1).toNat
      let front := ds.take whole ++ List.replicate (whole - ds.length) '0'
      let back := ds.drop whole
      front ++ '.' :: (if back.isEmpty then ['0'] else back)
  else
    let front := ds.take 1 ++ (if ds.length ≤ 1 then [] else '.' :: ds.drop 1)
    let power := decimals exponent.natAbs
    let padded := List.replicate (2 - power.length) '0' ++ power
    front ++ 'e' :: (if exponent < 0 then '-' else '+') :: padded

/-- The decimal text of a number. -/
def text : Binary64 → List Char
  | .nan => ['n', 'a', 'n']
  | .infinity negative => (if negative then ['-'] else []) ++ ['i', 'n', 'f']
  | .finite negative m e =>
    (if negative then ['-'] else []) ++
      (if m = 0 then ['0', '.', '0'] else let (k, u) := shortest m e; layout k u)

example : (ofDecimal false 1 (-1)).text = ['0', '.', '1'] := by decide +kernel
example : (ofDecimal false 1 22).text = ['1', 'e', '+', '2', '2'] := by decide +kernel
example : (ofDecimal true 15 (-6)).text = ['-', '1', '.', '5', 'e', '-', '0', '5'] := by
  decide +kernel
example : (ofDecimal false 10 0).text = ['1', '0', '.', '0'] := by decide +kernel

end StreamResolver.Binary64
