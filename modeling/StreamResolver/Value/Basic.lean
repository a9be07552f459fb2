/-
  Values of responses, configuration layers and log fields.

  A video response is whatever the other end sends, and a configuration layer whatever its author
  wrote, so both are values of one dynamic type: null, truth value, integer of any size, binary64
  number, text, list, object with its keys in order.  What the program knows about such a value it
  finds out by the small tests below.
-/
import StreamResolver.Keyed
import StreamResolver.Number.Binary64

namespace StreamResolver

/-- A dynamic value. -/
inductive Value where
  | null
  | bool (b : Bool)
  | int (n : Int)
  | float (x : Binary64)
  | str (s : String)
  | list (items : List Value)
  | object (fields : List (String × Value))
  deriving Repr, BEq

namespace Value

instance : Inhabited Value := ⟨.null⟩

/-- The value of a text given as characters. -/
def ofChars (s : List Char) : Value := .str (String.ofList s)

/-- Whether a value counts as true: everything but null, false, zero and what is empty. -/
def truthy : Value → Bool
  | .null => false
  | .bool b => b
  | .int n => n ≠ 0
  | .float x => x.isNonzero
  | .str s => s ≠ ""
  | .list items => !items.isEmpty
  | .object fields => !fields.isEmpty

/-- The fields of an object. -/
def fields? : Value → Option (Keyed Value)
  | .object fields => some fields
  | _ => none

/-- Whether the value is an object. -/
def isObject (v : Value) : Bool := v.fields?.isSome

/-- The value under a key of an object. -/
def get? (v : Value) (key : String) : Option Value := v.fields?.bind (·.get? key)

end Value

end StreamResolver
