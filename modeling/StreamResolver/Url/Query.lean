/-
  Queries as lists of pairs.

  A query is pairs of a name and a value: pairs are separated by `&`, the name ends at the first `=`,
  a plus sign stands for a space, and the rest is percent coding.  An empty part between two
  separators is no pair; a part without `=` has an empty value.
-/
import StreamResolver.Url.Percent

namespace StreamResolver.Query

open Text

/-- A name and its value. -/
abbrev Pair := List Char × List Char

/-- A name or a value as it was before encoding. -/
def unescape (s : List Char) : List Char :=
  Percent.decode (s.map fun c => if c = '+' then ' ' else c)

/-- A name or a value as part of a query. -/
def escapeText (s : List Char) : List Char :=
  (Percent.encode (· == ' ') s).map fun c => if c = ' ' then '+' else c

/-- The pair of a part of a query. -/
def readPair (part : List Char) : Pair :=
  let (name, value) := cutAt '=' part
  (unescape name, unescape (value.getD []))

/-- The pairs of a query. -/
def parse (query : List Char) : List Pair :=
  ((splitOn '&' query).filter fun part => !part.isEmpty).map readPair

/-- A pair as part of a query. -/
def writePair (p : Pair) : List Char := escapeText p.1 ++ '=' :: escapeText p.2

/-- The query of a list of pairs. -/
def render (pairs : List Pair) : List Char := joinWith ['&'] (pairs.map writePair)

example : parse "a=1&&b&c=%26+x".toList =
    [(['a'], ['1']), (['b'], []), (['c'], ['&', ' ', 'x'])] := by decide
example : render [(['n'], ['a', ' ', '&']), (['b'], [])] = "n=a+%26&b=".toList := by decide

end StreamResolver.Query
