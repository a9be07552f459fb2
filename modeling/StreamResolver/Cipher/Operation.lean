/-
  The four operations on a list of characters.

  A player script scrambles a parameter by a sequence of four operations.  Each takes an integer
  argument; arguments in scripts are naturals, but the operations are defined for every integer, with
  offsets counted modulo the length and a negative count of dropped characters counting from the end.

  Statements: no operation but `dropFront` changes the length, and all of them leave the empty list
  empty.
-/
import StreamResolver.Keyed

namespace StreamResolver.Cipher

/-- An operation on a list of characters. -/
inductive Operation where
  | reverse
  | dropPrefix
  | swapAtOffset
  | rotateLeft
  deriving DecidableEq, Repr

namespace Operation

/-- The name of an operation in log events. -/
def name : Operation → String
  | .reverse => "reverse"
  | .dropPrefix => "drop_prefix"
  | .swapAtOffset => "swap_at_offset"
  | .rotateLeft => "rotate_left"

/-- The operation of a name. -/
def ofName? (name : String) : Option Operation :=
  [Operation.reverse, .dropPrefix, .swapAtOffset, .rotateLeft].find? (·.name == name)

variable {α : Type}

/-- An offset modulo the length of a list. -/
def wrap (offset : Int) (length : Nat) : Nat := (Int.emod offset length).toNat

/-- Drop the first `count` elements; a negative count keeps that many at the end. -/
def dropFront (count : Int) (s : List α) : List α :=
  if count < 0 then s.drop (s.length - count.natAbs) else s.drop count.toNat

/-- Exchange the first element with the one at an index inside the list. -/
def swapFirst (i : Nat) (s : List α) : List α :=
  match s, s[i]? with
  | x :: _, some y => (s.set i x).set 0 y
  | _, _ => s

/-- Exchange the first element with the one at the offset. -/
def swapAt (offset : Int) (s : List α) : List α := swapFirst (wrap offset s.length) s

/-- Move the first element to the end, `count` times. -/
def rotate (count : Int) (s : List α) : List α :=
  let shift := wrap count s.length
  s.drop shift ++ s.take shift

/-- What an operation does to a list. -/
def apply : Operation → Int → List α → List α
  | .reverse, _, s => s.reverse
  | .dropPrefix, n, s => dropFront n s
  | .swapAtOffset, n, s => swapAt n s
  | .rotateLeft, n, s => rotate n s

/-! ## Lengths -/

theorem length_swapFirst (i : Nat) (s : List α) : (swapFirst i s).length = s.length := by
  unfold swapFirst
  split <;> simp

theorem length_rotate (count : Int) (s : List α) : (rotate count s).length = s.length := by
  simp only [rotate, List.length_append, List.length_drop, List.length_take]
  omega

/-- Only dropping changes the length. -/
theorem length_apply (op : Operation) (n : Int) (s : List α) (h : op ≠ .dropPrefix) :
    (op.apply n s).length = s.length := by
  cases op with
  | reverse => simp [apply]
  | dropPrefix => exact absurd rfl h
  | swapAtOffset => exact length_swapFirst _ _
  | rotateLeft => exact length_rotate _ _

theorem apply_nil (op : Operation) (n : Int) : op.apply n ([] : List α) = [] := by
  cases op <;> simp [apply, dropFront, swapAt, swapFirst, rotate]

example : rotate (-1) [1, 2, 3] = [3, 1, 2] := by decide
example : swapAt 5 [1, 2, 3] = [3, 2, 1] := by decide
example : dropFront (-2) [1, 2, 3] = [2, 3] := by decide

end Operation

/-- The operations of a script by the names they are called by. -/
abbrev OperationTable := Keyed Operation

end StreamResolver.Cipher
