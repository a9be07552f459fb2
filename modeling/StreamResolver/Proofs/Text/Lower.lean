/-
  Lower case and signs.

  A text is lowered character by character, so lowering goes through appending.  A sign, an ASCII
  character that is no letter, stays as it is, and no other character has it in its small text
  (`sign_mem_lowerOne`).  For ASCII characters that is checked one by one; all others lower to
  something outside ASCII or to one of the letters `i` and `k`, which the bounds of the runs of
  capitals show.

  So a text that is lowered keeps its signs where they were, and what stands between two signs is
  lowered by itself.
-/
import StreamResolver.Proofs.Text.Ascii
import StreamResolver.Text.LetterCase

namespace StreamResolver.Text

@[simp] theorem lower_nil : lower [] = [] := rfl

theorem lower_cons (c : Char) (s : List Char) : lower (c :: s) = lowerOne c ++ lower s := rfl

theorem lower_append (s s' : List Char) : lower (s ++ s') = lower s ++ lower s' :=
  List.flatMap_append

/-! ## One character -/

theorem lowerOne_of_ascii {c : Char} (h : c.toNat < 0x80) : lowerOne c = [c.toLower] := by
  have hne : (c.toNat == 0x130) = false := by
    rw [beq_eq_false_iff_ne]
    omega
  rw [lowerOne, hne, lowerChar, if_pos h]
  rfl

/-- The small letters of a run lie outside ASCII and inside Unicode, but for one that is `k`. -/
theorem caseRuns_bounds : ∀ r ∈ caseRuns, (r.lo = 0x212a ∧ r.hi = 0x212a ∧ r.delta = -8383) ∨
    (0x80 ≤ r.lo + r.delta ∧
      (r.hi + r.delta < 0xd800 ∨ (0xdfff < r.lo + r.delta ∧ r.hi + r.delta < 0x110000))) := by
  decide +kernel

theorem toNat_ofNat {n : Nat} (h : n < 0xd800 ∨ (0xdfff < n ∧ n < 0x110000)) :
    (Char.ofNat n).toNat = n := by
  have hvalid : n.isValidChar := h
  rw [Char.ofNat, dif_pos hvalid]
  rfl

/-- What a character outside ASCII lowers to. -/
theorem mem_lowerOne {c x : Char} (hc : 0x80 ≤ c.toNat) (hx : x ∈ lowerOne c) :
    0x80 ≤ x.toNat ∨ x = 'i' ∨ x = 'k' := by
  rw [lowerOne] at hx
  split at hx
  · rcases List.mem_cons.mp hx with rfl | hx
    · exact .inr (.inl rfl)
    · rw [List.mem_singleton.mp hx]
      exact .inl (by decide)
  rw [List.mem_singleton.mp hx, lowerChar, if_neg (Nat.not_lt.mpr hc)]
  split
  · exact .inr (.inl rfl)
  split
  · next r hr =>
    have hhas := List.find?_some hr
    simp only [CaseRun.has, Bool.and_eq_true, decide_eq_true_eq] at hhas
    rcases caseRuns_bounds r (List.mem_of_find?_eq_some hr) with ⟨hlo, hhi, hdelta⟩ | ⟨hlow, hvalid⟩
    · have hkelvin : c.toNat = 0x212a := by omega
      rw [hkelvin, hdelta]
      exact .inr (.inr (by decide))
    · refine .inl ?_
      rw [toNat_ofNat (by omega)]
      omega
  · exact .inl hc

/-! ## Signs -/

/-- Whether a character is an ASCII character that is no letter. -/
def isSign (c : Char) : Bool := c.toNat < 0x80 && !c.isAlpha

/-- A sign is its own small text, and no other character has it in its own. -/
theorem sign_mem_lowerOne {sep c : Char} (h : isSign sep = true) : sep ∈ lowerOne c ↔ c = sep := by
  simp only [isSign, Bool.and_eq_true, decide_eq_true_eq, Bool.not_eq_true'] at h
  by_cases hc : c.toNat < 0x80
  · have hsmall : c.toLower = c ∨ c.toLower.isAlpha = true :=
      ascii_forall (P := fun c => c.toLower = c ∨ c.toLower.isAlpha = true) (by decide +kernel) hc
    have hsign : sep.toLower = sep :=
      ascii_forall (P := fun c => c.isAlpha = false → c.toLower = c) (by decide +kernel) h.1 h.2
    rw [lowerOne_of_ascii hc, List.mem_singleton]
    constructor
    · rintro rfl
      rcases hsmall with hsame | hletter
      · exact hsame.symm
      · rw [h.2] at hletter
        simp at hletter
    · rintro rfl
      exact hsign.symm
  · constructor
    · intro hmem
      rcases mem_lowerOne (Nat.not_lt.mp hc) hmem with hfar | rfl | rfl
      · omega
      · exact absurd h.2 (by decide)
      · exact absurd h.2 (by decide)
    · rintro rfl
      exact absurd h.1 hc

theorem lowerOne_sign {sep : Char} (h : isSign sep = true) : lowerOne sep = [sep] := by
  have hself := (sign_mem_lowerOne h).mpr rfl
  simp only [isSign, Bool.and_eq_true, decide_eq_true_eq] at h
  rw [lowerOne_of_ascii h.1, List.mem_singleton] at hself
  rw [lowerOne_of_ascii h.1, ← hself]

theorem lower_sign_cons {sep : Char} (h : isSign sep = true) (s : List Char) :
    lower (sep :: s) = sep :: lower s := by
  rw [lower_cons, lowerOne_sign h]
  rfl

theorem sign_mem_lower {sep : Char} (h : isSign sep = true) {s : List Char} :
    sep ∈ lower s ↔ sep ∈ s := by
  unfold lower
  rw [List.mem_flatMap]
  constructor
  · rintro ⟨c, hc, hsep⟩
    rwa [← (sign_mem_lowerOne h).mp hsep]
  · intro hmem
    exact ⟨sep, hmem, (sign_mem_lowerOne h).mpr rfl⟩

end StreamResolver.Text
