/-
  Numbers as they are passed around: integers and binary64 numbers kept apart.

  A timeout given as `5` is shown as `5` and one given as `5.0` as `5.0`, so the two kinds are not
  merged.
-/
import StreamResolver.Number.Decimal

namespace StreamResolver

/-- An integer or a binary64 number. -/
inductive Number where
  | int (n : Int)
  | float (x : Binary64)
  deriving DecidableEq, Repr

/-- The decimal text of a number. -/
def Number.text : Number → String
  | .int n => String.ofList (Text.integerText n)
  | .float x => String.ofList x.text

end StreamResolver
