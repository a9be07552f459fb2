/-
  Powers of two and of ten.

  These are the scales of binary and of decimal numbers.
-/

namespace StreamResolver

/-- A power of two. -/
def twoTo (n : Nat) : Nat := Nat.pow 2 n

/-- A power of ten. -/
def tenTo (n : Nat) : Nat := Nat.pow 10 n

theorem twoTo_succ (n : Nat) : twoTo (n + 1) = 2 * twoTo n := Nat.mul_comm _ _

theorem twoTo_pos (n : Nat) : 0 < twoTo n := Nat.pow_pos (n := n) (by decide)

theorem tenTo_succ (n : Nat) : tenTo (n + 1) = 10 * tenTo n := Nat.mul_comm _ _

theorem tenTo_pos (n : Nat) : 0 < tenTo n := Nat.pow_pos (n := n) (by decide)

end StreamResolver
