/-
  The operations rearrange what they are given.

  Whatever the elements are, an operation only says which of them goes where: it can be done before
  or after the elements are changed one by one (`apply_map`), and no operation but `dropFront` loses
  an element (`apply_perm`).

  A script rotates by a loop that moves the first element to the end, time after time.  `rotate`
  cuts the list once, at the count modulo the length; that is the rotation of lists, so it is the
  loop for every count (`rotate_natCast`, `moveFirst_eq_rotate`).  An exchange is told by what
  stands at each position afterwards (`getElem?_swapAt`).  `apply_laws` puts the laws together.
-/
import Mathlib.Data.List.Perm.Basic
import Mathlib.Data.List.Rotate
import StreamResolver.Proofs.Cipher.PlayerScript

namespace StreamResolver.Cipher

namespace Operation

variable {α β : Type}

/-! ## Offsets -/

theorem wrap_natCast (k length : Nat) : wrap k length = k % length := by
  show ((k : Int) % (length : Int)).toNat = k % length
  omega

theorem wrap_lt (offset : Int) {length : Nat} (h : length ≠ 0) : wrap offset length < length := by
  have hnonneg : 0 ≤ offset % (length : Int) := Int.emod_nonneg _ (by omega)
  have hlt : offset % (length : Int) < length := Int.emod_lt_of_pos _ (by omega)
  show (offset % (length : Int)).toNat < length
  omega

/-! ## Dropping and rotating -/

theorem dropFront_eq (k : Nat) (s : List α) : dropFront k s = s.drop k := by
  rw [dropFront, if_neg (by omega), Int.toNat_natCast]

theorem rotate_natCast (k : Nat) (s : List α) : rotate k s = s.rotate k := by
  rw [rotate, wrap_natCast, List.rotate_eq_drop_append_take_mod]

/-- The loop is the rotation of lists, however often it is gone through. -/
theorem moveFirst_eq_rotate (n : Nat) (s : List α) : Shape.moveFirst n s = s.rotate n := by
  induction n generalizing s with
  | zero => exact s.rotate_zero.symm
  | succ n ih =>
    rcases s with _ | ⟨x, rest⟩
    · exact (ih []).trans (by rw [List.rotate_nil, List.rotate_nil])
    · show Shape.moveFirst n (rest ++ [x]) = (x :: rest).rotate (n + 1)
      rw [ih, List.rotate_cons_succ]

/-! ## Exchanging -/

theorem swapFirst_eq_swap (i : Nat) (s : List α) : swapFirst i s = s.swap 0 i := by
  rcases s with _ | ⟨x, rest⟩
  · rfl
  · rcases Nat.lt_or_ge i (x :: rest).length with h | h
    · have hi : (x :: rest)[i]? = some (x :: rest)[i] := List.getElem?_eq_getElem h
      rw [List.swap_comm, List.swap_eq_of_lt h (Nat.zero_lt_of_lt h)]
      simp only [swapFirst, hi]
      rfl
    · have hi : (x :: rest)[i]? = none := List.getElem?_eq_none h
      rw [List.swap_eq_of_ge_right h]
      simp only [swapFirst, hi]

/-- **The exchange by positions**: the first one and the one at the offset, and no other. -/
theorem getElem?_swapAt (offset : Int) (s : List α) (j : Nat) :
    (swapAt offset s)[j]? =
      if j = 0 then s[wrap offset s.length]?
      else if j = wrap offset s.length then s[0]? else s[j]? := by
  rw [swapAt, swapFirst_eq_swap]
  rcases Nat.eq_zero_or_pos s.length with hempty | hpos
  · rw [List.length_eq_zero_iff.mp hempty]
    simp
  · have hlt := wrap_lt offset (Nat.pos_iff_ne_zero.mp hpos)
    generalize wrap offset s.length = i at hlt ⊢
    rw [List.swap_comm, List.swap_eq_of_lt hlt hpos, List.getElem?_set, List.getElem?_set,
      List.length_set, List.getElem?_eq_getElem hlt, List.getElem?_eq_getElem hpos]
    by_cases hzero : j = 0
    · rw [if_pos hzero, if_pos hzero.symm, if_pos hpos]
    · rw [if_neg hzero, if_neg (Ne.symm hzero)]
      by_cases hi : j = i
      · rw [if_pos hi, if_pos hi.symm, if_pos hlt]
      · rw [if_neg hi, if_neg (Ne.symm hi)]

theorem swapAt_swapAt (offset : Int) (s : List α) : swapAt offset (swapAt offset s) = s := by
  have hlength : (swapAt offset s).length = s.length := length_swapFirst _ s
  rw [swapAt, hlength, swapFirst_eq_swap, swapAt, swapFirst_eq_swap, List.swap_swap]

/-! ## Rearranging -/

/-- An operation does not look at the elements. -/
theorem apply_map (op : Operation) (n : Int) (f : α → β) (s : List α) :
    op.apply n (s.map f) = (op.apply n s).map f := by
  cases op with
  | reverse => exact List.map_reverse.symm
  | dropPrefix =>
    simp only [apply, dropFront, List.length_map, ← List.map_drop]
    exact (apply_ite (List.map f) _ _ _).symm
  | swapAtOffset =>
    refine List.ext_getElem? fun j => ?_
    simp only [apply, getElem?_swapAt, List.getElem?_map, List.length_map]
    split_ifs <;> rfl
  | rotateLeft => simp [apply, rotate]

theorem apply_perm {op : Operation} (h : op ≠ .dropPrefix) (n : Int) (s : List α) :
    (op.apply n s).Perm s := by
  cases op with
  | reverse => exact s.reverse_perm
  | dropPrefix => exact absurd rfl h
  | swapAtOffset =>
    show (swapFirst _ s).Perm s
    rw [swapFirst_eq_swap]
    exact List.swap_perm s 0 _
  | rotateLeft =>
    show (s.drop _ ++ s.take _).Perm s
    exact List.perm_append_comm.trans (by rw [List.take_append_drop])

/-! ## The laws -/

/-- **The operations do what the loops of a script do**: a rotation by `a` is `a` rounds of the loop,
    so counts add up and whole turns are nothing; drops add up; turning round twice is nothing; and
    an exchange, which is undone by itself, is one of the first element and the one at the offset. -/
theorem apply_laws (s : List α) (a b : Nat) (m n offset : Int) :
    rotateLeft.apply a s = Shape.moveFirst a s ∧
    rotateLeft.apply b (rotateLeft.apply a s) = rotateLeft.apply (a + b : Nat) s ∧
    rotateLeft.apply (a * s.length : Nat) s = s ∧
    dropPrefix.apply b (dropPrefix.apply a s) = dropPrefix.apply (a + b : Nat) s ∧
    reverse.apply n (reverse.apply m s) = s ∧
    swapAtOffset.apply offset (swapAtOffset.apply offset s) = s ∧
    ∀ i : Nat, (swapAtOffset.apply offset s)[i]? =
      if i = 0 then s[(offset % s.length).toNat]?
      else if i = (offset % s.length).toNat then s[0]? else s[i]? := by
  refine ⟨?loop, ?add, ?turns, ?drops, s.reverse_reverse, swapAt_swapAt offset s,
    getElem?_swapAt offset s⟩
  case loop => exact (rotate_natCast a s).trans (moveFirst_eq_rotate a s).symm
  case add =>
    show rotate b (rotate a s) = rotate (a + b : Nat) s
    rw [rotate_natCast, rotate_natCast, rotate_natCast, List.rotate_rotate]
  case turns =>
    show rotate (a * s.length : Nat) s = s
    rw [rotate_natCast, Nat.mul_comm, List.rotate_length_mul]
  case drops =>
    show dropFront b (dropFront a s) = dropFront (a + b : Nat) s
    rw [dropFront_eq, dropFront_eq, dropFront_eq, List.drop_drop]

end Operation

end StreamResolver.Cipher
