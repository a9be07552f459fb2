/-
  Trimmed texts.

  A trimmed text has no blank at its ends, and a text that has none is not changed by trimming.
-/
import StreamResolver.Text.Basic

namespace StreamResolver.Text

/-- A text without blanks at its ends. -/
structure Bare (s : List Char) : Prop where
  front : ∀ c, s.head? = some c → isBlank c = false
  back : ∀ c, s.getLast? = some c → isBlank c = false

theorem head?_dropWhile {p : Char → Bool} {s : List Char} {c : Char}
    (h : (s.dropWhile p).head? = some c) : p c = false := by
  have hhead := List.head?_dropWhile_not p s
  rw [h] at hhead
  exact hhead

theorem dropWhile_of_head? {p : Char → Bool} {s : List Char}
    (h : ∀ c, s.head? = some c → p c = false) : s.dropWhile p = s := by
  cases s with
  | nil => rfl
  | cons c rest => rw [List.dropWhile_cons, h c rfl]; rfl

/-- What is trimmed is just the run at the end. -/
theorem trimEnd_append {p : Char → Bool} {s t : List Char} (ht : ∀ c ∈ t, p c = true)
    (hs : ∀ c, s.getLast? = some c → p c = false) : trimEnd p (s ++ t) = s := by
  have hrun : ∀ c ∈ t.reverse, p c = true := fun c hc => ht c (List.mem_reverse.mp hc)
  have hback : ∀ c, s.reverse.head? = some c → p c = false := fun c hc =>
    hs c (List.head?_reverse.symm.trans hc)
  rw [trimEnd, List.reverse_append, List.dropWhile_append_of_pos hrun, dropWhile_of_head? hback,
    List.reverse_reverse]

theorem bare_trim (s : List Char) : Bare (trim s) where
  front c hc := by
    obtain ⟨dropped, hsplit⟩ := trimEnd_isPrefix isBlank (s.dropWhile isBlank)
    rw [trim] at hc
    have hhead : (s.dropWhile isBlank).head? = some c := by
      rw [← hsplit, List.head?_append, hc, Option.some_or]
    exact head?_dropWhile hhead
  back c hc := by
    rw [trim, trimEnd, List.getLast?_reverse] at hc
    exact head?_dropWhile hc

theorem trim_of_bare {s : List Char} (h : Bare s) : trim s = s := by
  have hback : ∀ c, s.reverse.head? = some c → isBlank c = false := fun c hc =>
    h.back c (List.head?_reverse.symm.trans hc)
  rw [trim, dropWhile_of_head? h.front, trimEnd, dropWhile_of_head? hback, List.reverse_reverse]

end StreamResolver.Text
