/-
  Runs of digits.

  A run of decimal digits, of any script, holds no white space, no sign and no underscore, so nothing
  of it is dropped when it is read as a numeral: it stands for a natural, unless there are more digits
  than are read (`readInteger_digits`).
-/
import StreamResolver.Proofs.Text.Blanks
import StreamResolver.Text.Numeral

namespace StreamResolver.Text

theorem dropWhile_eq_self {q : Char → Bool} {s : List Char} (h : ∀ c ∈ s, q c = false) :
    s.dropWhile q = s := by
  rcases s with _ | ⟨c, rest⟩
  · rfl
  · rw [List.dropWhile_cons, h c List.mem_cons_self]
    rfl

theorem isSpace_of_isDigit {c : Char} (h : isDigit c = true) : isSpace c = false := by
  rw [isSpace, isBlank_of_isDigit h, Bool.false_and]

/-- What is told from a digit before its value is taken. -/
theorem digit_ne_sign {c : Char} (h : isDigit c = true) : c ≠ '_' ∧ c ≠ '-' ∧ c ≠ '+' := by
  refine ⟨?_, ?_, ?_⟩ <;>
  · rintro rfl
    exact absurd h (by decide)

variable {s : List Char}

theorem digitRun_digits (hs : ∀ c ∈ s, isDigit c = true) (mustFollow : Bool)
    (h : s ≠ [] ∨ mustFollow = false) :
    digitRun digitValue mustFollow s = some (s.map fun c => (digitValue c).getD 0) := by
  induction s generalizing mustFollow with
  | nil =>
    obtain rfl : mustFollow = false := by simpa using h
    rfl
  | cons c s ih =>
    have hc := hs c List.mem_cons_self
    obtain ⟨d, hd⟩ := Option.isSome_iff_exists.mp hc
    rw [digitRun, if_neg (digit_ne_sign hc).1, hd,
      ih (fun x hx => hs x (List.mem_cons_of_mem c hx)) false (.inr rfl), List.map_cons, hd]
    rfl

/-- **A run of digits is read** as the natural that it stands for, unless it is too long. -/
theorem readInteger_digits (hs : ∀ c ∈ s, isDigit c = true) (hne : s ≠ []) :
    readInteger s = if maxDigits < s.length then .error .tooLong
      else .ok (valueOf (s.map fun c => (digitValue c).getD 0) : Nat) := by
  have hspace : ∀ c ∈ s, isSpace c = false := fun c hc => isSpace_of_isDigit (hs c hc)
  have hback : ∀ c ∈ s.reverse, isSpace c = false := fun c hc =>
    hspace c (List.mem_reverse.mp hc)
  have hstrip : stripSpace s = s := by
    rw [stripSpace, dropWhile_eq_self hspace, trimEnd, dropWhile_eq_self hback,
      List.reverse_reverse]
  have hsign : takeSign s = (false, s) := by
    unfold takeSign
    split
    · exact absurd rfl (digit_ne_sign (hs _ List.mem_cons_self)).2.1
    · exact absurd rfl (digit_ne_sign (hs _ List.mem_cons_self)).2.2
    · rfl
  rw [readInteger, readIntegerWith, hstrip, hsign]
  simp only [digitRun_digits hs true (.inl hne), List.length_map]
  rfl

end StreamResolver.Text
