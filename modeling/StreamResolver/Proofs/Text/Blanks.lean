/-
  Blanks are told from other characters.

  The properties of characters are tables of ranges; that two of them have no character in common is
  seen by comparing their ranges two by two.  No word character and no digit is a blank.
-/
import StreamResolver.Proofs.Text.Ascii
import StreamResolver.Text.Property

namespace StreamResolver.Text

theorem exists_of_inRanges {n : Nat} {rs : List (Nat × Nat)} (h : inRanges n rs = true) :
    ∃ r ∈ rs, r.1 ≤ n ∧ n ≤ r.2 := by
  induction rs with
  | nil => simp [inRanges] at h
  | cons r rs ih =>
    obtain ⟨lo, hi⟩ := r
    unfold inRanges at h
    split at h
    · simp at h
    · next hlo =>
      split at h
      · next hhi => exact ⟨(lo, hi), List.mem_cons_self, Nat.not_lt.mp hlo, hhi⟩
      · obtain ⟨r, hr, hn⟩ := ih h
        exact ⟨r, List.mem_cons_of_mem _ hr, hn⟩

/-- A character in a range that meets no range of blanks is no blank. -/
theorem not_blank_of_apart {n : Nat} {r : Nat × Nat} (hr : r.1 ≤ n ∧ n ≤ r.2)
    (hapart : ∀ b ∈ blankRanges, r.2 < b.1 ∨ b.2 < r.1) : inRanges n blankRanges = false := by
  rcases hblank : inRanges n blankRanges with _ | _
  · rfl
  · obtain ⟨b, hb, hin⟩ := exists_of_inRanges hblank
    have := hapart b hb
    omega

/-- A digit is no blank. -/
theorem isBlank_of_isDigit {c : Char} (h : isDigit c = true) : isBlank c = false := by
  unfold isBlank
  unfold isDigit digitValue at h
  split at h
  · next hascii =>
    rw [if_pos hascii]
    split at h
    · next hdigit =>
      have hlow : 0x30 ≤ c.toNat := (Char.isDigit_iff_toNat.mp hdigit).1
      simp only [Bool.or_eq_false_iff, Bool.and_eq_false_iff, decide_eq_false_iff_not]
      omega
    · simp at h
  · next hascii =>
    rw [if_neg hascii]
    rw [Option.isSome_map, List.find?_isSome] at h
    obtain ⟨r, hr, hin⟩ := h
    rw [Bool.and_eq_true, decide_eq_true_eq, decide_eq_true_eq] at hin
    have hapart : ∀ r ∈ digitRanges, ∀ b ∈ blankRanges, r.2 < b.1 ∨ b.2 < r.1 := by decide +kernel
    exact not_blank_of_apart hin (hapart r hr)

/-- A word character is no blank. -/
theorem isBlank_of_isWord {c : Char} (h : isWord c = true) : isBlank c = false := by
  rcases Nat.lt_or_ge c.toNat 0x80 with hascii | hascii
  · have hall : ∀ n, n < 0x80 → isWord (Char.ofNat n) = true → isBlank (Char.ofNat n) = false := by
      decide +kernel
    exact ascii_forall (P := fun c => isWord c = true → isBlank c = false) hall hascii h
  · rw [isWord, if_neg (by omega)] at h
    rw [isBlank, if_neg (by omega)]
    obtain ⟨r, hr, hin⟩ := exists_of_inRanges h
    have hapart : ∀ r ∈ wordRanges, ∀ b ∈ blankRanges, r.2 < b.1 ∨ b.2 < r.1 := by decide +kernel
    exact not_blank_of_apart hin (hapart r hr)

end StreamResolver.Text
