/-
  Deciphering a media URL: the ciphered values of its query are replaced by decoded ones.

  The pairs of the query keep their order; a pair is ciphered when it has the name of the cipher
  parameter and a value.  A deciphered URL asks for the full rate: the flag is appended unless the
  query has it already.

  Decoding may have to wait for the transform, so a deciphering can stand still at a ciphered pair: it
  then holds the pairs that are settled and those that are still to come.  `complete` does the rest
  at once when the transform is known.
-/
import StreamResolver.Cipher.Transform
import StreamResolver.Url.Basic
import StreamResolver.Url.Query

namespace StreamResolver.Cipher

open Query (Pair)

/-- Whether a pair of a query is ciphered. -/
def isCiphered (param : List Char) (p : Pair) : Bool := p.1 == param && !p.2.isEmpty

/-- The flag that asks for the full rate. -/
def rateFlag : Pair := ("ratebypass".toList, "yes".toList)

/-- The pairs with the flag that asks for the full rate. -/
def withRateFlag (pairs : List Pair) : List Pair :=
  if pairs.any fun p => p.1 == rateFlag.1 then pairs else pairs ++ [rateFlag]

/-- A URL whose query is replaced by the given pairs and the rate flag. -/
def withPairs (url : Url) (pairs : List Pair) : String :=
  String.ofList { url with query := Query.render (withRateFlag pairs) }.text

/-- Whether a URL has a ciphered value. -/
def carriesCipher (param url : String) : Except Fault Bool := do
  return (Query.parse (← Url.split url.toList).query).any (isCiphered param.toList)

/-- The pair with its value decoded if it is ciphered. -/
def decodePair (param : List Char) (t : Transform) (p : Pair) : Pair :=
  if isCiphered param p then (p.1, t.run p.2) else p

/-- A deciphering that stands at a ciphered pair. -/
structure Deciphering where
  url : Url
  /-- The pairs before it, the ciphered ones decoded. -/
  settled : List Pair
  key : List Char
  value : List Char
  /-- The pairs behind it. -/
  rest : List Pair
  deriving DecidableEq, Repr

namespace Deciphering

/-- Go on to the next ciphered pair; without one, the deciphered URL. -/
def seek (param : List Char) (url : Url) (settled : List Pair) : List Pair → String ⊕ Deciphering
  | [] => .inl (withPairs url settled)
  | p :: rest =>
    if isCiphered param p then .inr ⟨url, settled, p.1, p.2, rest⟩
    else seek param url (settled ++ [p]) rest

/-- Begin to decipher a URL. -/
def start (param url : String) : Except Fault (String ⊕ Deciphering) := do
  let parts ← Url.split url.toList
  return seek param.toList parts [] (Query.parse parts.query)

/-- Decode the pair where the deciphering stands, and go on to the next. -/
def advance (param : List Char) (t : Transform) (d : Deciphering) : String ⊕ Deciphering :=
  seek param d.url (d.settled ++ [(d.key, t.run d.value)]) d.rest

/-- Decode all that is left. -/
def complete (param : List Char) (t : Transform) (d : Deciphering) : String :=
  withPairs d.url
    (d.settled ++ (d.key, t.run d.value) :: d.rest.map (decodePair param t))

end Deciphering

end StreamResolver.Cipher
