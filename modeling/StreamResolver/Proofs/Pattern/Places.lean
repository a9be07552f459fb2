/-
  What an expression captures at each place of a text.

  A fixed text and a greedy run of characters behind it leave no choice: whether they match at a
  place, and what the run captures, is a function of the text behind the place (`ReadsAs`).  The
  leftmost match of such an expression captures the first of all the readings of a text
  (`search?_readings`), so a statement about a search becomes one about a list.
-/
import StreamResolver.Proofs.Pattern.Capturing
import StreamResolver.Proofs.Pattern.Taking
import StreamResolver.Text.Basic

namespace StreamResolver.Pattern

open Text

/-! ## Fixed texts and runs -/

/-- A fixed text is there or not. -/
theorem run_literal (bound : Nat) (text : List Char) (k : Next) (pos : Nat)
    (before after : List Char) (caps : Captures) :
    (literal text).run bound k ⟨pos, before, after, caps⟩ =
      (dropFront? text after).bind fun rest =>
        k ⟨pos + text.length, text.reverse ++ before, rest, caps⟩ := by
  induction text generalizing pos before after with
  | nil => rfl
  | cons c text ih =>
    rw [literal, List.map_cons, run_sequence_cons, ← literal]
    rcases after with _ | ⟨x, after⟩
    · rfl
    · show (if (CharSet.char c).has x then _ else none) = _
      by_cases hx : c = x
      · subst hx
        rw [if_pos (by simp), ih, dropFront?, if_pos rfl, List.length_cons, List.reverse_cons,
          List.append_assoc, List.singleton_append, Nat.add_assoc, Nat.add_comm 1]
      · rw [if_neg (by simpa using fun h : x = c => hx h.symm), dropFront?, if_neg hx]
        rfl

/-- The characters of a set at the start of a text, if there are any. -/
def front? (set : CharSet) (s : List Char) : Option (List Char) :=
  (some (s.takeWhile set.has)).filter (!·.isEmpty)

theorem front?_eq_some {set : CharSet} {s w : List Char} (h : front? set s = some w) :
    w = s.takeWhile set.has ∧ w ≠ [] := by
  rw [front?, Option.filter_eq_some_iff, Option.some.injEq] at h
  exact ⟨h.1.symm, by simpa using h.2⟩

/-- A greedy run that is captured takes all that it can, and with nothing behind it that is the
    match. -/
theorem run_capture_some1 {set : CharSet} {after : List Char} {bound : Nat}
    (hbound : after.length ≤ bound) (n pos : Nat) (before : List Char) (caps : Captures) :
    ((capture n (some1 set)).run bound some ⟨pos, before, after, caps⟩).map (·.captured? n) =
      (front? set after).map some := by
  -- what the run takes, and what stops it
  have hw : ∀ c ∈ after.takeWhile set.has, set.has c = true := List.all_eq_true.mp List.all_takeWhile
  have hstop : ∀ c ∈ (after.dropWhile set.has).head?, set.has c = false := by
    intro c hc
    have hnot := List.head?_dropWhile_not set.has after
    rw [Option.mem_def.mp hc] at hnot
    simpa using hnot
  have hsplit : after = after.takeWhile set.has ++ after.dropWhile set.has :=
    List.takeWhile_append_dropWhile.symm
  rw [front?]
  generalize after.takeWhile set.has = w at hw hsplit ⊢
  generalize after.dropWhile set.has = rest at hstop hsplit
  subst hsplit
  by_cases hempty : w = []
  · subst hempty
    have hnone : (capture n (some1 set)).run bound some ⟨pos, before, [] ++ rest, caps⟩ = none := by
      refine run_eq_none (fun t ht => ?_) bound some
      obtain ⟨m, ⟨u, hu, hlen, -, hreads⟩, -⟩ := ht
      obtain ⟨c, u, rfl⟩ := List.exists_cons_of_length_pos (l := u) hlen
      have hc : set.has c = false :=
        hstop c (by rw [show rest = c :: (u ++ m.after) from hreads.after_eq]; rfl)
      rw [hu c List.mem_cons_self] at hc
      cases hc
    rw [hnone]
    rfl
  · have hspan : (some1 set).Takes before caps w rest caps :=
      takes_span hw (List.length_pos_iff.mpr hempty) (by simp) hstop before caps
    rw [takes_capture (n := n) hspan bound hbound pos some _ rfl,
      Option.filter_eq_some_iff.mpr ⟨rfl, by simpa using hempty⟩]
    simp [Place.captured?]

/-! ## Readings -/

/-- What can be read at the places of a text, from its start on. -/
def readings {α : Type} (read? : List Char → Option α) : List Char → List α
  | [] => (read? []).toList
  | c :: rest => (read? (c :: rest)).toList ++ readings read? rest

/-- What is read at a place is among the readings. -/
theorem mem_readings {α : Type} {read? : List Char → Option α} {front rest : List Char} {a : α}
    (h : read? rest = some a) : a ∈ readings read? (front ++ rest) := by
  induction front with
  | nil =>
    rw [List.nil_append]
    rcases rest with _ | ⟨c, rest⟩ <;> simp [readings, h]
  | cons c front ih =>
    rw [List.cons_append, readings]
    exact List.mem_append_right _ ih

/-- Each of the readings is read at some place. -/
theorem exists_of_mem_readings {α : Type} {read? : List Char → Option α} {s : List Char} {a : α}
    (h : a ∈ readings read? s) : ∃ rest, read? rest = some a := by
  induction s with
  | nil => exact ⟨[], by simpa [readings] using h⟩
  | cons c rest ih =>
    rw [readings, List.mem_append, Option.mem_toList] at h
    rcases h with h | h
    · exact ⟨c :: rest, h⟩
    · exact ih h

/-- At each place the expression captures what is read there, or it does not match. -/
def ReadsAs (p : Pattern) (read? : List Char → Option (List Char)) : Prop :=
  ∀ bound pos before after, after.length ≤ bound →
    (p.run bound some ⟨pos, before, after, []⟩).map (·.captured? 1) = (read? after).map some

variable {p : Pattern} {read? : List Char → Option (List Char)}

theorem ReadsAs.matchAt? (h : p.ReadsAs read?) {bound : Nat} {after : List Char}
    (hbound : after.length ≤ bound) (pos : Nat) (before : List Char) :
    (Pattern.matchAt? bound p false ⟨pos, before, after, []⟩).map (·.group? 1) =
      (read? after).map some := by
  rw [← h bound pos before after hbound, Pattern.matchAt?, Option.map_map]
  simp only [Bool.false_and, Bool.false_eq_true, if_false]
  rfl

theorem ReadsAs.searchFrom (h : p.ReadsAs read?) {bound : Nat} {text : List Char}
    (hbound : text.length ≤ bound) (pos : Nat) (before passed : List Char) :
    (Pattern.searchFrom bound p false text pos before passed).map (·.2.group? 1) =
      (readings read? text).head?.map some := by
  induction text generalizing pos before passed with
  | nil =>
    have hhere := h.matchAt? hbound pos before
    rw [Pattern.searchFrom, Option.map_map, readings, Option.head?_toList, ← hhere]
    rfl
  | cons c rest ih =>
    have hhere := h.matchAt? hbound pos before
    rw [Pattern.searchFrom, readings, List.head?_append, Option.head?_toList]
    rcases hmatch : Pattern.matchAt? bound p false ⟨pos, before, c :: rest, []⟩ with _ | m
    · rw [hmatch] at hhere
      rw [(Option.map_eq_none_iff.mp hhere.symm), Option.none_or]
      exact ih (Nat.le_of_succ_le hbound) (pos + 1) (c :: before) (c :: passed)
    · rw [hmatch] at hhere
      obtain ⟨id, hid, hgroup⟩ := Option.map_eq_some_iff.mp hhere.symm
      rw [hid, Option.some_or, Option.map_some, Option.map_some, hgroup]

/-- **The leftmost match** captures the first of the readings. -/
theorem ReadsAs.search? (h : p.ReadsAs read?) (text : List Char) :
    (p.search? text).map (·.group? 1) = (readings read? text).head?.map some := by
  rw [Pattern.search?, Option.map_map]
  exact h.searchFrom (by rw [boundFor]; omega) 0 [] []

/-- The expression occurs in a text when something can be read there. -/
theorem ReadsAs.occursIn (h : p.ReadsAs read?) (text : List Char) :
    p.occursIn text = !(readings read? text).isEmpty := by
  have hsearch := congrArg Option.isSome (h.search? text)
  rw [Option.isSome_map, Option.isSome_map] at hsearch
  rw [Pattern.occursIn, hsearch]
  cases readings read? text <;> rfl

/-! ## Matches as runs -/

theorem searchFrom_runs {bound : Nat} {rest : List Char} {pos : Nat}
    {before passed passed' : List Char} {found : Found} (hbound : rest.length ≤ bound)
    (h : Pattern.searchFrom bound p false rest pos before passed = some (passed', found)) :
    ∃ s, s.whole = before.reverse ++ rest ∧ s.after.length ≤ bound ∧
      p.run bound some s = some found.stop := by
  have hmatch : ∀ s m, Pattern.matchAt? bound p false s = some m →
      p.run bound some s = some m.stop := by
    intro s m hm
    rw [Pattern.matchAt?] at hm
    simp only [Bool.false_and, Bool.false_eq_true, if_false] at hm
    obtain ⟨t, ht, rfl⟩ := Option.map_eq_some_iff.mp hm
    exact ht
  induction rest generalizing pos before passed with
  | nil =>
    rw [Pattern.searchFrom, Option.map_eq_some_iff] at h
    obtain ⟨m, hm, heq⟩ := h
    obtain ⟨-, rfl⟩ := Prod.mk.injEq _ _ _ _ ▸ heq
    exact ⟨_, rfl, hbound, hmatch _ _ hm⟩
  | cons c rest ih =>
    unfold Pattern.searchFrom at h
    split at h
    · next m hm =>
      rw [Option.some.injEq, Prod.mk.injEq] at h
      obtain ⟨-, rfl⟩ := h
      exact ⟨_, rfl, hbound, hmatch _ _ hm⟩
    · obtain ⟨s, hwhole, hlen, hrun⟩ := ih (Nat.le_of_succ_le hbound) h
      rw [List.reverse_cons, List.append_assoc] at hwhole
      exact ⟨s, hwhole, hlen, hrun⟩

/-- The leftmost match is a run of the expression with nothing behind it. -/
theorem search?_runs {text : List Char} {found : Found} (h : p.search? text = some found) :
    ∃ bound s, s.whole = text ∧ s.after.length ≤ bound ∧
      p.run bound some s = some found.stop := by
  rw [Pattern.search?, Option.map_eq_some_iff] at h
  obtain ⟨⟨passed, m⟩, hm, rfl⟩ := h
  exact ⟨boundFor text, searchFrom_runs (by rw [boundFor]; omega) hm⟩

end StreamResolver.Pattern
