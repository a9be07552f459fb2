/-
  ASCII characters.

  There are few of them, so what is to be known of them all can be checked one by one; and letters
  and digits, as core has them, are among them.
-/
import StreamResolver.Text.Basic

namespace StreamResolver

/-- What holds of all ASCII characters can be checked one by one. -/
theorem ascii_forall {P : Char → Prop} (h : ∀ n, n < 0x80 → P (Char.ofNat n)) {c : Char}
    (hc : c.toNat < 0x80) : P c := by
  have hn := h c.toNat hc
  rw [Char.ofNat_toNat] at hn
  exact hn

theorem ascii_of_isAlphanum {c : Char} (h : c.isAlphanum = true) : c.toNat < 0x80 := by
  have hz : 'z'.val.toNat = 122 := rfl
  have hZ : 'Z'.val.toNat = 90 := rfl
  have h9 : '9'.val.toNat = 57 := rfl
  have hc : c.toNat = c.val.toNat := rfl
  delta Char.isAlphanum Char.isAlpha Char.isUpper Char.isLower Char.isDigit at h
  simp only [Bool.or_eq_true, Bool.and_eq_true, decide_eq_true_eq, UInt32.le_iff_toNat_le] at h
  omega

end StreamResolver
