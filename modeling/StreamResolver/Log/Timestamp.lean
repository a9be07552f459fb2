/-
  The moment of an event, as text.

  A moment is given in seconds since the start of 1970 and written as a date and a time of the standard
  zone, with six digits of a second if it is not a whole one.  A number with a fraction is rounded to
  the nearest microsecond, a half to the even one; the fraction is scaled in binary64 before that.

  The calendar counts days: a year that starts in March has its leap day at its end, so the day of such
  a year gives the month by a division.  Only the years 1 to 9999 can be written.
-/
import StreamResolver.Number.Basic
import StreamResolver.Number.Reading

namespace StreamResolver.Log

open Text

/-- Why a moment cannot be written. -/
inductive MomentError where
  /-- Not a number, or outside of the years 1 to 9999. -/
  | outsideCalendar
  /-- So far away that its year has more than 31 bits. -/
  | outsideClock
  /-- The number of seconds has more than 63 bits. -/
  | outsideCounter
  deriving DecidableEq, Repr

/-! ## The calendar -/

/-- A day of the calendar. -/
structure Day where
  year : Int
  month : Nat
  day : Nat
  deriving DecidableEq, Repr

/-- The day that is so many days behind the first one of 1970. -/
def Day.ofNumber (n : Int) : Day :=
  let shifted := n + 719468
  let era := Int.fdiv shifted 146097
  let dayOfEra := (shifted - era * 146097).toNat
  let yearOfEra :=
    (dayOfEra - dayOfEra / 1460 + dayOfEra / 36524 - dayOfEra / 146096) / 365
  let dayOfYear := dayOfEra - (365 * yearOfEra + yearOfEra / 4 - yearOfEra / 100)
  let march := (5 * dayOfYear + 2) / 153
  let month := if march < 10 then march + 3 else march - 9
  { year := (yearOfEra : Int) + era * 400 + (if month ≤ 2 then 1 else 0)
    month
    day := dayOfYear - (153 * march + 2) / 5 + 1 }

/-! ## Writing -/

/-- A natural with leading zeros up to a width. -/
def padded (width n : Nat) : List Char :=
  let ds := decimals n
  List.replicate (width - ds.length) '0' ++ ds

/-- The largest number of seconds that is counted, plus one. -/
def counterBound : Int := twoTo 63

/-- The seconds whose year has at most 31 bits. -/
def inClock (seconds : Int) : Bool :=
  -67768040609740800 ≤ seconds && seconds < 67768036191676800

/-- The seconds within the years 1 to 9999. -/
def inCalendar (seconds : Int) : Bool := -62135596800 ≤ seconds && seconds < 253402300800

/-- The text of a moment. -/
def momentText (seconds : Int) (micros : Nat) : Except MomentError (List Char) :=
  if seconds < -counterBound || counterBound ≤ seconds then .error .outsideCounter
  else if !inClock seconds then .error .outsideClock
  else if !inCalendar seconds then .error .outsideCalendar
  else
    let days := Int.fdiv seconds 86400
    let second := (seconds - days * 86400).toNat
    let d := Day.ofNumber days
    .ok (padded 4 d.year.toNat ++ '-' :: padded 2 d.month ++ '-' :: padded 2 d.day ++
      'T' :: padded 2 (second / 3600) ++ ':' :: padded 2 (second / 60 % 60) ++
      ':' :: padded 2 (second % 60) ++
      (if micros = 0 then [] else '.' :: padded 6 micros) ++ ['Z'])

/-- The whole microseconds nearest to a fraction of a second, which is below one. -/
def microsOf (x : Binary64) : Nat :=
  match x.times 1000000 with
  | .finite _ m e =>
    let (num, den) := Binary64.magnitude m e
    Binary64.roundDiv num den
  | _ => 0

/-- The fraction of a number behind the integer between zero and it; the sign is dropped. -/
def fractionOf (m : Nat) (e : Int) : Binary64 :=
  let (num, den) := Binary64.magnitude m e
  .ofRatio false (num % den) den

/-- Seconds and microseconds; of a moment before 1970 the microseconds are counted onwards from a whole
    second too. -/
def split (negative : Bool) (whole micros : Nat) : Int × Nat :=
  if negative then
    if micros = 0 then (-(whole : Int), 0)
    else (-(whole : Int) - 1, 1000000 - micros)
  else (whole + micros / 1000000, micros % 1000000)

/-- The text of the moment that is so many seconds behind the start of 1970. -/
def timestamp : Number → Except MomentError String
  | .int n => (momentText n 0).map String.ofList
  | .float .nan => .error .outsideCalendar
  | .float (.infinity _) => .error .outsideCounter
  | .float (.finite negative m e) =>
    let (num, den) := Binary64.magnitude m e
    let (seconds, micros) := split negative (num / den) (microsOf (fractionOf m e))
    (momentText seconds micros).map String.ofList

example : Day.ofNumber 11016 = ⟨2000, 2, 29⟩ := by decide
example : Day.ofNumber (-1) = ⟨1969, 12, 31⟩ := by decide
example : timestamp (.int 951782400) = .ok "2000-02-29T00:00:00Z" := by rfl

end StreamResolver.Log
