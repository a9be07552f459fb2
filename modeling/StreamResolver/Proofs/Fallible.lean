/-
  What failed, and what did not.

  A value that came out of several steps tells that each of them gave one, and a failure of a list of
  steps is that of one of them.  A computation that can give one value only is described by it and by
  the condition under which it gives it (`GivesWhen`); steps in sequence add up their conditions.
-/
namespace StreamResolver.Fallible

variable {α β ε : Type}

theorem exists_of_bind_eq_ok {x : Except ε α} {f : α → Except ε β} {b : β} (h : x >>= f = .ok b) :
    ∃ a, x = .ok a ∧ f a = .ok b := by
  rcases x with e | a
  · cases h
  · exact ⟨a, rfl, h⟩

theorem of_bind_eq_error {x : Except ε α} {f : α → Except ε β} {e : ε} (h : x >>= f = .error e) :
    x = .error e ∨ ∃ a, x = .ok a ∧ f a = .error e := by
  rcases x with e' | a
  · cases h
    exact .inl rfl
  · exact .inr ⟨a, rfl, h⟩

theorem exists_of_map_eq_ok {x : Except ε α} {f : α → β} {b : β} (h : x.map f = .ok b) :
    ∃ a, x = .ok a ∧ f a = b := by
  rcases x with e | a
  · cases h
  · cases h
    exact ⟨a, rfl, rfl⟩

theorem eq_ok_of_mapError_eq_ok {x : Except ε α} {ε' : Type} {f : ε → ε'} {a : α}
    (h : x.mapError f = .ok a) : x = .ok a := by
  rcases x with e | b
  · cases h
  · cases h
    rfl

theorem eq_ok_of_toOption {x : Except ε α} {a : α} (h : x.toOption = some a) : x = .ok a := by
  rcases x with e | b
  · cases h
  · cases h
    rfl

/-- Each value of a list of steps is that of one step. -/
theorem mem_of_mapM_eq_ok {f : α → Except ε β} {xs : List α} {ys : List β}
    (h : xs.mapM f = .ok ys) : ∀ y ∈ ys, ∃ x ∈ xs, f x = .ok y := by
  induction xs generalizing ys with
  | nil =>
    cases h
    simp
  | cons x xs ih =>
    rw [List.mapM_cons] at h
    obtain ⟨y, hx, h⟩ := exists_of_bind_eq_ok h
    obtain ⟨rest, hxs, h⟩ := exists_of_bind_eq_ok h
    cases h
    intro y' hy'
    rcases List.mem_cons.mp hy' with rfl | hy'
    · exact ⟨x, List.mem_cons_self, hx⟩
    · obtain ⟨x', hx', hf⟩ := ih hxs y' hy'
      exact ⟨x', List.mem_cons_of_mem x hx', hf⟩

/-- A list of steps only fails where one step does. -/
theorem exists_of_mapM_eq_error {f : α → Except ε β} {xs : List α} {e : ε}
    (h : xs.mapM f = .error e) : ∃ x ∈ xs, f x = .error e := by
  induction xs with
  | nil => cases h
  | cons x xs ih =>
    rw [List.mapM_cons] at h
    rcases of_bind_eq_error h with hx | ⟨y, -, h⟩
    · exact ⟨x, List.mem_cons_self, hx⟩
    · rcases of_bind_eq_error h with hxs | ⟨rest, -, h⟩
      · obtain ⟨x', hx', hf⟩ := ih hxs
        exact ⟨x', List.mem_cons_of_mem x hx', hf⟩
      · cases h

/-! ## Computations that give one value under a condition -/

/-- The computation gives this value under this condition, and else it fails. -/
def GivesWhen (x : Except ε α) (condition : Prop) (a : α) : Prop :=
  ∀ r, x = .ok r ↔ condition ∧ r = a

variable {x : Except ε α} {P Q : Prop} {a : α}

theorem gives (a : α) : GivesWhen (.ok a : Except ε α) True a := by
  intro r
  rw [Except.ok.injEq, true_and, eq_comm]

theorem givesWhen_not {e : ε} (h : ¬ P) (a : α) : GivesWhen (.error e) P a :=
  fun _ => iff_of_false nofun fun h' => h h'.1

theorem givesWhen_of {b : α} (h : P) (hb : b = a) : GivesWhen (.ok b : Except ε α) P a := by
  intro r
  rw [hb, Except.ok.injEq, and_iff_right h, eq_comm]

theorem GivesWhen.iff (h : GivesWhen x P a) (hPQ : P ↔ Q) : GivesWhen x Q a := by
  intro r
  rw [h r, hPQ]

theorem GivesWhen.bind {f : α → Except ε β} {b : β} (hx : GivesWhen x P a)
    (hf : GivesWhen (f a) Q b) : GivesWhen (x >>= f) (P ∧ Q) b := by
  intro r
  constructor
  · intro h
    obtain ⟨a', ha', hr⟩ := exists_of_bind_eq_ok h
    obtain ⟨hP, rfl⟩ := (hx a').mp ha'
    obtain ⟨hQ, rfl⟩ := (hf r).mp hr
    exact ⟨⟨hP, hQ⟩, rfl⟩
  · rintro ⟨⟨hP, hQ⟩, rfl⟩
    rw [(hx a).mpr ⟨hP, rfl⟩]
    exact (hf r).mpr ⟨hQ, rfl⟩

/-- What is made of the value is given under the same condition. -/
theorem GivesWhen.map {g : α → β} (hx : GivesWhen x P a) :
    GivesWhen (x >>= fun a => pure (g a)) P (g a) :=
  (hx.bind (gives (g a))).iff (and_iff_left trivial)

/-- A list of steps gives its values when each step does. -/
theorem givesWhen_mapM {f : α → Except ε β} {C : α → Prop} {g : α → β}
    (h : ∀ a, GivesWhen (f a) (C a) (g a)) (as : List α) :
    GivesWhen (as.mapM f) (∀ a ∈ as, C a) (as.map g) := by
  induction as with
  | nil => exact (gives []).iff (iff_of_true trivial nofun)
  | cons a as ih =>
    rw [List.mapM_cons]
    exact ((h a).bind ih.map).iff List.forall_mem_cons.symm

end StreamResolver.Fallible
