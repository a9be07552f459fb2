/-
  What a scalar means.

  The kind of a plain scalar follows from its look: there is a form for truth values, for numbers in
  several bases and in base sixty, for the null, for dates and for moments; what has none of the forms
  is text.  A tag can name a kind instead, and then the scalar has to be readable as that kind,
  whatever it looks like, so looking and reading are separate definitions.
-/
import StreamResolver.Yaml.Cursor
import StreamResolver.Number.Reading

namespace StreamResolver.Yaml

open Text

/-- The kinds of nodes. -/
inductive Kind where
  | null
  | bool
  | int
  | float
  | text
  | octets
  | moment
  | sequence
  | mapping
  | set
  /-- A sequence of single entries. -/
  | entries
  /-- The key whose value is merged into the mapping. -/
  | merge
  /-- The key that stands for the mapping itself. -/
  | default
  | unknown
  deriving DecidableEq, Repr

/-- The kind that a tag names. -/
def Kind.ofTag (tag : String) : Kind :=
  match dropFront? "tag:yaml.org,2002:".toList tag.toList with
  | none => .unknown
  | some name =>
    match String.ofList name with
    | "null" => .null
    | "bool" => .bool
    | "int" => .int
    | "float" => .float
    | "str" => .text
    | "binary" => .octets
    | "timestamp" => .moment
    | "seq" => .sequence
    | "map" => .mapping
    | "set" => .set
    | "omap" | "pairs" => .entries
    | "merge" => .merge
    | "value" => .default
    | _ => .unknown

namespace Scalar

/-! ## Forms of numbers -/

def isDecimal (c : Char) : Bool := '0' ≤ c && c ≤ '9'

/-- A digit or an underscore, which groups digits. -/
def isGrouped (c : Char) : Bool := isDecimal c || c == '_'

/-- Whether a text is not empty and of characters that satisfy `p`. -/
def isRun (p : Char → Bool) (s : List Char) : Bool := !s.isEmpty && s.all p

/-- Pass groups of a colon and a number below sixty, at least one. -/
def passSixties : List Char → Option (List Char)
  | ':' :: a :: b :: ':' :: rest =>
    if isDecimal a && isDecimal b && a ≤ '5' then passSixties (':' :: rest) else none
  | ':' :: a :: ':' :: rest => if isDecimal a then passSixties (':' :: rest) else none
  | ':' :: a :: b :: rest =>
    if isDecimal a && isDecimal b && a ≤ '5' then some rest
    else if isDecimal a && !isDecimal b then some (b :: rest)
    else none
  | [':', a] => if isDecimal a then some [] else none
  | _ => none

/-- The end of a number: nothing, or an exponent with a sign. -/
def isExponent : List Char → Bool
  | [] => true
  | e :: sign :: digits =>
    (e == 'e' || e == 'E') && (sign == '+' || sign == '-') && isRun isDecimal digits
  | _ => false

/-- The form of a number with a point. -/
def looksFloat (s : List Char) : Bool :=
  let body := (takeSign s).2
  let rest := body.dropWhile isGrouped
  let startsWithDigit := (body.head?.map isDecimal).getD false
  (startsWithDigit && rest.head? == some '.' && isExponent (rest.tail.dropWhile isGrouped)) ||
    (startsWithDigit && (match passSixties rest with
      | some ('.' :: part) => part.all isGrouped
      | _ => false)) ||
    (match s with
      | '.' :: d :: part => isDecimal d && isExponent (part.dropWhile isGrouped)
      | _ => false) ||
    [".inf", ".Inf", ".INF"].contains (String.ofList body) ||
    [".nan", ".NaN", ".NAN"].contains (String.ofList s)

/-- The form of an integer: binary, octal, decimal, hexadecimal or in base sixty. -/
def looksInt (s : List Char) : Bool :=
  match (takeSign s).2 with
  | ['0'] => true
  | '0' :: 'b' :: digits => isRun (fun c => c == '0' || c == '1' || c == '_') digits
  | '0' :: 'x' :: digits =>
    isRun (fun c => isGrouped c || ('a' ≤ c && c ≤ 'f') || ('A' ≤ c && c ≤ 'F')) digits
  | '0' :: digits => isRun (fun c => c == '_' || ('0' ≤ c && c ≤ '7')) digits
  | c :: more =>
    isDecimal c &&
      (match more.dropWhile isGrouped with
        | [] => true
        | rest => passSixties rest == some [])
  | [] => false

/-! ## Moments -/

/-- A date, or a moment with its time of day and its distance from the standard time in minutes. -/
structure Moment where
  year : Nat
  month : Nat
  day : Nat
  time : Option (Nat × Nat × Nat)
  zone : Nat
  deriving DecidableEq, Repr

/-- Pass a number of at least `least` and at most `most` digits. -/
def passNumber (least most : Nat) (s : List Char) : Option (Nat × List Char) :=
  let digits := (s.take most).takeWhile isDecimal
  if digits.length < least then none
  else some (valueOf (digits.map fun c => c.toNat - '0'.toNat), s.drop digits.length)

/-- Pass a character. -/
def passChar (c : Char) (s : List Char) : Option (List Char) :=
  match s with
  | x :: rest => if x = c then some rest else none
  | [] => none

/-- The distance from the standard time that ends a moment, in minutes. -/
def zone? (s : List Char) : Option Nat :=
  match s.dropWhile isGap with
  | [] => if s.isEmpty then some 0 else none
  | ['Z'] => some 0
  | sign :: rest =>
    if sign == '+' || sign == '-' then do
      let (hours, rest) ← passNumber 1 2 rest
      if rest.isEmpty then return 60 * hours
      let (minutes, rest) ← passNumber 2 2 (← passChar ':' rest)
      if rest.isEmpty then return 60 * hours + minutes else none
    else none

/-- The time of day and what follows it. -/
def time? (s : List Char) : Option ((Nat × Nat × Nat) × Nat) := do
  let (hour, rest) ← passNumber 1 2 s
  let (minute, rest) ← passNumber 2 2 (← passChar ':' rest)
  let (second, rest) ← passNumber 2 2 (← passChar ':' rest)
  let rest := match rest with
    | '.' :: part => part.dropWhile isDecimal
    | _ => rest
  return ((hour, minute, second), ← zone? rest)

/-- Read the form of a date or a moment; whether there is such a day is not asked. -/
def moment? (s : List Char) : Option Moment := do
  let (year, rest) ← passNumber 4 4 s
  let (month, rest) ← passNumber 1 2 (← passChar '-' rest)
  let (day, rest) ← passNumber 1 2 (← passChar '-' rest)
  match rest with
  | [] => return ⟨year, month, day, none, 0⟩
  | c :: later =>
    let (time, zone) ←
      if c == 'T' || c == 't' then time? later
      else if isGap c then time? (rest.dropWhile isGap)
      else none
    return ⟨year, month, day, some time, zone⟩

/-- The form of a date or a moment; a date alone has two digits for the month and the day. -/
def looksMoment (s : List Char) : Bool :=
  match moment? s with
  | some m => m.time.isSome || s.length == 10
  | none => false

/-- The number of days of a month. -/
def daysIn (year month : Nat) : Nat :=
  if month == 2 then
    if year % 4 == 0 && (year % 100 != 0 || year % 400 == 0) then 29 else 28
  else if [4, 6, 9, 11].contains month then 30
  else 31

/-- Whether there is such a day, time and distance. -/
def Moment.exists (m : Moment) : Bool :=
  1 ≤ m.year && 1 ≤ m.month && m.month ≤ 12 && 1 ≤ m.day && m.day ≤ daysIn m.year m.month &&
    m.zone < 1440 &&
    (match m.time with
      | some (hour, minute, second) => hour < 24 && minute < 60 && second < 60
      | none => true)

/-! ## The kind of a plain scalar -/

/-- The truth value of a word in lower case. -/
def truth? (s : List Char) : Option Bool :=
  match String.ofList s with
  | "yes" | "true" | "on" => some true
  | "no" | "false" | "off" => some false
  | _ => none

/-- Whether a word is in lower case, in capitals, or has only a capital at its start. -/
def isCased (s : List Char) : Bool :=
  let isLower := fun (c : Char) => 'a' ≤ c && c ≤ 'z'
  let isUpper := fun (c : Char) => 'A' ≤ c && c ≤ 'Z'
  s.all isLower || s.all isUpper || ((s.take 1).all isUpper && (s.drop 1).all isLower)

/-- The kind that follows from the look of a plain scalar. -/
def kindOf (s : List Char) : Kind :=
  if isCased s && (truth? (lower s)).isSome then .bool
  else if looksFloat s then .float
  else if looksInt s then .int
  else if s == ['<', '<'] then .merge
  else if s.isEmpty || s == ['~'] || (isCased s && lower s == ['n', 'u', 'l', 'l']) then .null
  else if looksMoment s then .moment
  else if s == ['='] then .default
  else .text

/-! ## Reading as a kind -/

/-- The value of a digit in a base up to sixteen. -/
def digitBelow (base : Nat) (c : Char) : Option Nat :=
  let value := match digitValue c with
    | some d => some d
    | none =>
      if 'a' ≤ c && c ≤ 'f' then some (c.toNat - 'a'.toNat + 10)
      else if 'A' ≤ c && c ≤ 'F' then some (c.toNat - 'A'.toNat + 10)
      else none
  value.filter (· < base)

/-- A number in a base, with a sign and the mark of the base if they are there. -/
def inBase? (base : Nat) (mark : Char) (s : List Char) : Option Int := do
  let (negative, body) := takeSign (stripSpace s)
  let body := match body with
    | '0' :: m :: rest => if lowerChar m == mark && !rest.isEmpty then rest else body
    | _ => body
  let digits ← body.mapM (digitBelow base)
  if digits.isEmpty then none
  else return withSign negative (digits.foldl (fun n d => base * n + d) 0)

/-- The sum of the parts of a number in base sixty, the most significant first. -/
def inSixties (parts : List Int) : Int := parts.foldl (fun n d => 60 * n + d) 0

/-- The number in base sixty whose parts need not be whole: the last part first, each added part is
    rounded. -/
def floatInSixties (parts : List Binary64) : Binary64 :=
  (parts.reverse.foldl (fun (sum, base) part => (Binary64.add sum (part.times base), 60 * base))
    (Binary64.ofInt 0, 1)).1

/-- The sign of a number and what follows it; the number is not empty. -/
def signed (s : List Char) : Except Error (Bool × List Char) :=
  if s.isEmpty then .error .emptyNumber else .ok (takeSign s)

/-- What is read, or the error for what cannot be. -/
def orUnreadable {α : Type} : Option α → Except Error α
  | some a => .ok a
  | none => .error .unreadable

/-- An integer in decimal digits of any script. -/
def decimal? (s : List Char) : Option Int := (readInteger s).toOption

/-- Read an integer. -/
def integer (s : List Char) : Except Error Int := do
  let (negative, body) ← signed (s.filter (· != '_'))
  let n ← match body with
    | ['0'] => pure 0
    | '0' :: 'b' :: digits => orUnreadable (inBase? 2 'b' digits)
    | '0' :: 'x' :: digits => orUnreadable (inBase? 16 'x' digits)
    | '0' :: _ => orUnreadable (inBase? 8 'o' body)
    | [] => .error .emptyNumber
    | _ =>
      if body.contains ':' then
        return (if negative then -1 else 1) *
          inSixties (← orUnreadable ((splitOn ':' body).mapM decimal?))
      else orUnreadable (decimal? body)
  return if negative then -n else n

/-- Read a number with a point. -/
def float (s : List Char) : Except Error Binary64 := do
  let (negative, body) ← signed (lower (s.filter (· != '_')))
  let read (t : List Char) : Option Binary64 := Binary64.ofText? digitValue (stripSpace t)
  let x ← match String.ofList body with
    | ".inf" => pure (.infinity false)
    | ".nan" => pure .nan
    | _ =>
      if body.contains ':' then do
        pure (floatInSixties (← orUnreadable ((splitOn ':' body).mapM read)))
      else orUnreadable (read body)
  return if negative then x.neg else x

/-- Read a truth value. -/
def bool (s : List Char) : Except Error Bool :=
  match truth? (lower s) with
  | some b => .ok b
  | none => .error .notTruth

/-- Read a date or a moment. -/
def moment (s : List Char) : Except Error Moment :=
  match moment? s with
  | none => .error .notMoment
  | some m => if m.exists then .ok m else .error .unreadable

example : kindOf "1:30".toList = .int := by decide +kernel
example : kindOf "1e3".toList = .text := by decide +kernel
example : integer "-1_90:20:30".toList = .ok (-685230) := by rfl
example : kindOf "2001-12-14".toList = .moment := by decide +kernel

end Scalar

end StreamResolver.Yaml
