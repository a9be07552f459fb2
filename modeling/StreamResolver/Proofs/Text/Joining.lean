/-
  Texts that are cut and joined.

  Joining puts a separator between texts; with one more text behind them, each of them has the
  separator behind it.  Cutting at a character undoes joining when no piece holds it: the first
  piece ends at the first place where the character stands.  A run of characters that have a property
  ends at the first one that does not have it.
-/
import StreamResolver.Text.Basic

namespace StreamResolver.Text

/-! ## Joining -/

section Joining

variable (sep : List Char)

theorem joinWith_cons (piece : List Char) {pieces : List (List Char)} (h : pieces ≠ []) :
    joinWith sep (piece :: pieces) = piece ++ (sep ++ joinWith sep pieces) := by
  obtain ⟨next, more, rfl⟩ := List.exists_cons_of_ne_nil h
  rw [joinWith, List.append_assoc]
  simp

theorem joinWith_concat (pieces : List (List Char)) (last : List Char) :
    joinWith sep (pieces ++ [last]) = pieces.flatMap (fun piece => piece ++ sep) ++ last := by
  induction pieces with
  | nil => rfl
  | cons piece pieces ih =>
    rw [List.cons_append, joinWith_cons sep piece (by simp), ih, List.flatMap_cons]
    simp only [List.append_assoc]

theorem joinWith_append {pieces : List (List Char)} (h : pieces ≠ []) (rest : List Char) :
    joinWith sep pieces ++ (sep ++ rest) = pieces.flatMap (fun piece => piece ++ sep) ++ rest := by
  rcases List.eq_nil_or_concat pieces with rfl | ⟨front, last, rfl⟩
  · exact absurd rfl h
  · rw [List.concat_eq_append, joinWith_concat, List.flatMap_append, List.flatMap_singleton]
    simp only [List.append_assoc]

end Joining

/-! ## Cutting -/

section Cutting

variable {sep : Char}

/-- Cutting undoes joining when no piece holds the separator. -/
theorem splitOn_append {piece : List Char} (hpiece : sep ∉ piece) (s : List Char) :
    splitOn sep (piece ++ sep :: s) = piece :: splitOn sep s := by
  induction piece with
  | nil => simp [splitOn]
  | cons c piece ih =>
    have hc : c ≠ sep := fun h => hpiece (by rw [h]; exact List.mem_cons_self)
    have hrest : sep ∉ piece := fun h => hpiece (List.mem_cons_of_mem c h)
    rw [List.cons_append, splitOn, if_neg hc, ih hrest]

theorem splitOn_of_not_mem {s : List Char} (h : sep ∉ s) : splitOn sep s = [s] := by
  induction s with
  | nil => rfl
  | cons c s ih =>
    have hc : c ≠ sep := fun hc => h (by rw [hc]; exact List.mem_cons_self)
    have hrest : sep ∉ s := fun hs => h (List.mem_cons_of_mem c hs)
    rw [splitOn, if_neg hc, ih hrest]

theorem splitOn_joinWith {pieces : List (List Char)} (hne : pieces ≠ [])
    (h : ∀ piece ∈ pieces, sep ∉ piece) : splitOn sep (joinWith [sep] pieces) = pieces := by
  induction pieces with
  | nil => exact absurd rfl hne
  | cons piece more ih =>
    have hpiece : sep ∉ piece := h piece List.mem_cons_self
    cases more with
    | nil => exact splitOn_of_not_mem hpiece
    | cons next more =>
      have hrest : ∀ p ∈ next :: more, sep ∉ p := fun p hp => h p (List.mem_cons_of_mem piece hp)
      have hjoin : joinWith [sep] (piece :: next :: more) =
          piece ++ sep :: joinWith [sep] (next :: more) := by
        simp [joinWith]
      rw [hjoin, splitOn_append hpiece, ih (by simp) hrest]

/-- What stands before the first separator holds none. -/
theorem cutAt_append {front : List Char} (hfront : sep ∉ front) (s : List Char) :
    cutAt sep (front ++ sep :: s) = (front, some s) := by
  induction front with
  | nil => simp [cutAt]
  | cons c front ih =>
    have hc : c ≠ sep := fun h => hfront (by rw [h]; exact List.mem_cons_self)
    have hrest : sep ∉ front := fun h => hfront (List.mem_cons_of_mem c h)
    rw [List.cons_append, cutAt, if_neg hc, ih hrest]

theorem cutAt_of_not_mem {s : List Char} (h : sep ∉ s) : cutAt sep s = (s, none) := by
  induction s with
  | nil => rfl
  | cons c s ih =>
    have hc : c ≠ sep := fun hc => h (by rw [hc]; exact List.mem_cons_self)
    have hrest : sep ∉ s := fun hs => h (List.mem_cons_of_mem c hs)
    rw [cutAt, if_neg hc, ih hrest]

/-- Where the separator stands first tells both parts. -/
theorem append_sep_inj {front front' s s' : List Char} (hfront : sep ∉ front)
    (hfront' : sep ∉ front') (h : front ++ sep :: s = front' ++ sep :: s') : front = front' ∧ s = s' := by
  have hcut := congrArg (cutAt sep) h
  rw [cutAt_append hfront, cutAt_append hfront', Prod.mk.injEq, Option.some.injEq] at hcut
  exact hcut

end Cutting

/-- Dropping a front undoes putting it there. -/
theorem dropFront?_eq_some_iff {front s rest : List Char} :
    dropFront? front s = some rest ↔ s = front ++ rest := by
  induction front generalizing s with
  | nil => rw [dropFront?, Option.some.injEq, List.nil_append]
  | cons c front ih =>
    rcases s with _ | ⟨x, s⟩
    · simp [dropFront?]
    · rw [dropFront?, List.cons_append, List.cons.injEq]
      split
      · next h => rw [ih, and_iff_right h.symm]
      · next h =>
        refine iff_of_false (Option.some_ne_none rest).symm ?_
        rintro ⟨heq, -⟩
        exact h heq.symm

/-! ## Runs -/

/-- What is to hold of the characters of a text is checked one after another. -/
theorem forall_mem_of_all {p : Char → Prop} [DecidablePred p] {s : List Char}
    (h : s.all (fun c => decide (p c)) = true) : ∀ c ∈ s, p c :=
  fun c hc => of_decide_eq_true (List.all_eq_true.mp h c hc)

/-- A run goes up to the first character that does not belong to it. -/
theorem span_run {p : Char → Bool} {run rest : List Char} (hrun : ∀ c ∈ run, p c = true)
    (hstop : ∀ c ∈ rest.head?, p c = false) :
    (run ++ rest).takeWhile p = run ∧ (run ++ rest).dropWhile p = rest := by
  have hbehind : rest.takeWhile p = [] ∧ rest.dropWhile p = rest := by
    rcases rest with _ | ⟨c, rest⟩
    · exact ⟨rfl, rfl⟩
    · have hc := hstop c rfl
      exact ⟨by simp [hc], by simp [hc]⟩
  rw [List.takeWhile_append_of_pos hrun, List.dropWhile_append_of_pos hrun, hbehind.1, hbehind.2,
    List.append_nil]
  exact ⟨rfl, rfl⟩

end StreamResolver.Text
