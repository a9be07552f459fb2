/-
  Integer numerals.

  A numeral is a run of decimal digits of any script, with single underscores allowed between digits,
  after an optional sign, in optional white space, to which the four information separators do not
  belong although they count as blanks.  A numeral of more than 4300 digits is refused: turning
  digits into a number costs quadratic time, and no counter in a video response is that long.

  `decimals` writes a natural back in ASCII digits.  Statement: reading what `decimals` writes gives
  the number back (`valueOf_digitsOf`).
-/
import StreamResolver.Number.Powers
import StreamResolver.Text.Basic

namespace StreamResolver.Text

/-- Why a text is not an integer. -/
inductive NumeralError where
  /-- The text is not a numeral. -/
  | malformed
  /-- The numeral has more digits than are read. -/
  | tooLong
  deriving DecidableEq, Repr

/-- The largest number of digits that is read. -/
def maxDigits : Nat := 4300

/-- The white space that may surround a number: the information separators do not count. -/
def isSpace (c : Char) : Bool := isBlank c && !(0x1c ≤ c.toNat && c.toNat ≤ 0x1f)

/-- A text without the white space at its ends. -/
def stripSpace (s : List Char) : List Char := trimEnd isSpace (s.dropWhile isSpace)

/-- The number that digit values stand for, the most significant first. -/
def valueOf (digits : List Nat) : Nat := digits.foldl (fun n d => 10 * n + d) 0

/-- The values of a run of digits with single underscores between them; `mustFollow` tells that a
    digit must come next. -/
def digitRun (value? : Char → Option Nat) : Bool → List Char → Option (List Nat)
  | mustFollow, [] => if mustFollow then none else some []
  | mustFollow, c :: rest =>
    if c = '_' then
      if mustFollow then none else digitRun value? true rest
    else do
      let d ← value? c
      let ds ← digitRun value? false rest
      return d :: ds

/-- An optional sign: whether it is a minus, and what follows it. -/
def takeSign : List Char → Bool × List Char
  | '-' :: rest => (true, rest)
  | '+' :: rest => (false, rest)
  | s => (false, s)

/-- The integer with the given sign and magnitude. -/
def withSign (negative : Bool) (n : Nat) : Int := if negative then -(n : Int) else n

/-- Read an integer numeral whose digits have the given values. -/
def readIntegerWith (value? : Char → Option Nat) (s : List Char) : Except NumeralError Int :=
  let (negative, body) := takeSign (stripSpace s)
  match digitRun value? true body with
  | none => .error .malformed
  | some digits =>
    if digits.length > maxDigits then .error .tooLong else .ok (withSign negative (valueOf digits))

/-- Read an integer numeral in the digits of any script. -/
def readInteger (s : List Char) : Except NumeralError Int := readIntegerWith digitValue s

/-! ## Writing -/

/-- The ASCII digit of a value below ten. -/
def digitChar (d : Nat) : Char := Char.ofNat (0x30 + d)

/-- The last `fuel` decimal digits of a natural, the most significant first, or fewer if they
    suffice. -/
def lastDigits : Nat → Nat → List Nat
  | 0, _ => []
  | fuel + 1, n => if n < 10 then [n] else lastDigits fuel (n / 10) ++ [n % 10]

/-- The decimal digits of a natural, the most significant first; there are at most as many as binary
    ones. -/
def digitsOf (n : Nat) : List Nat := lastDigits (n.log2 + 1) n

/-- A natural in decimal. -/
def decimals (n : Nat) : List Char := (digitsOf n).map digitChar

/-- An integer in decimal. -/
def integerText (n : Int) : List Char :=
  if n < 0 then '-' :: decimals n.natAbs else decimals n.natAbs

/-! ## Laws -/

theorem valueOf_append_singleton (ds : List Nat) (d : Nat) :
    valueOf (ds ++ [d]) = 10 * valueOf ds + d := by
  simp [valueOf, List.foldl_append]

theorem valueOf_lastDigits (fuel n : Nat) (h : n < twoTo fuel) :
    valueOf (lastDigits fuel n) = n := by
  induction fuel generalizing n with
  | zero => simp [twoTo] at h; simp [lastDigits, valueOf, h]
  | succ fuel ih =>
    unfold lastDigits
    split
    · simp [valueOf]
    · rw [valueOf_append_singleton, ih (n / 10) (by rw [twoTo_succ] at h; omega)]; omega

/-- The digits of a natural stand for it. -/
theorem valueOf_digitsOf (n : Nat) : valueOf (digitsOf n) = n :=
  valueOf_lastDigits _ _ Nat.lt_log2_self

theorem lastDigits_lt_ten (fuel n : Nat) : ∀ d ∈ lastDigits fuel n, d < 10 := by
  induction fuel generalizing n with
  | zero => simp [lastDigits]
  | succ fuel ih =>
    unfold lastDigits
    split
    · next h => simpa using h
    · intro d hd
      rcases List.mem_append.1 hd with hd | hd
      · exact ih _ d hd
      · simp at hd; omega

theorem digitsOf_lt_ten (n : Nat) : ∀ d ∈ digitsOf n, d < 10 := lastDigits_lt_ten _ _

theorem digitsOf_ne_nil (n : Nat) : digitsOf n ≠ [] := by
  unfold digitsOf lastDigits
  split <;> simp

example : readInteger [' ', '-', '1', '_', '0', '٣', '\n'] = .ok (-103) := by rfl
example : readInteger ['1', '_', '_', '0'] = .error .malformed := by rfl
example : readInteger ['\x1c', '1'] = .error .malformed := by rfl

end StreamResolver.Text
