/-
  Reporting does not look at what was reported.

  A computation of `Reporting` could read the events reported before it.  None of the program
  does: it only adds its own events behind them (`Appends`).  The result of a sequence is then the
  sequence of the results (`value_bind`), and a proof about results can forget the events.
-/
import StreamResolver.Log.Event

namespace StreamResolver.Reporting

variable {ε α β : Type}

/-- The result without the events. -/
def value (p : Reporting ε α) : Except ε α := p.result.1

/-- Whether a computation adds its events behind the earlier ones and is otherwise blind to them. -/
def Appends (p : Reporting ε α) : Prop :=
  ∀ events, p.run.run events = (p.result.1, events ++ p.result.2)

theorem appends_pure (a : α) : Appends (pure a : Reporting ε α) := fun events => by
  show (Except.ok a, events) = (Except.ok a, events ++ [])
  rw [List.append_nil]

theorem appends_throw (e : ε) : Appends (throw e : Reporting ε α) := fun events => by
  show (Except.error e, events) = (Except.error e, events ++ [])
  rw [List.append_nil]

theorem appends_emit (level : Level) (name : String) (fields : Keyed Value) :
    Appends (emit level name fields : Reporting ε Unit) := fun _ => rfl

theorem run_bind (p : Reporting ε α) (f : α → Reporting ε β) (events : List Event) :
    (p >>= f).run.run events =
      match p.run.run events with
      | (.error e, events) => (.error e, events)
      | (.ok a, events) => (f a).run.run events := by
  rw [ExceptT.run_bind, StateT.run_bind]
  rcases p.run.run events with ⟨e | a, events'⟩ <;> rfl

theorem appends_bind {p : Reporting ε α} {f : α → Reporting ε β} (hp : Appends p)
    (hf : ∀ a, Appends (f a)) : Appends (p >>= f) := by
  intro events
  have hstart : (p >>= f).result = _ := run_bind p f []
  rw [hstart, run_bind, hp events, hp []]
  rcases p.result.1 with e | a
  · rfl
  · simp only [List.nil_append]
    rw [hf a (events ++ _), hf a p.result.2, List.append_assoc]

/-- A report that is only made in some cases. -/
theorem appends_when {c : Prop} [Decidable c] {p : Reporting ε Unit} {f : Unit → Reporting ε β}
    (hp : Appends p) (hf : ∀ u, Appends (f u)) : Appends (if c then p >>= f else f ()) := by
  split
  · exact appends_bind hp hf
  · exact hf ()

/-- **Results in sequence**: the result of two computations is that of the second one on the value
    of the first, or the failure of the first. -/
theorem value_bind (p : Reporting ε α) {f : α → Reporting ε β} (hf : ∀ a, Appends (f a)) :
    (p >>= f).value =
      match p.value with
      | .error e => .error e
      | .ok a => (f a).value := by
  have hrun : (p >>= f).result = _ := run_bind p f []
  have hvalue : p.value = (p.run.run []).1 := rfl
  rw [value, hrun, hvalue]
  rcases p.run.run [] with ⟨e | a, events⟩
  · rfl
  · show ((f a).run.run events).1 = (f a).value
    rw [hf a events, value]

/-- Only what comes next has to be blind to the events. -/
theorem value_bind_of {p : Reporting ε α} {f : α → Reporting ε β} {a : α} (hf : Appends (f a))
    (h : p.value = .ok a) : (p >>= f).value = (f a).value := by
  have hrun : (p >>= f).result = _ := run_bind p f []
  have hvalue : (p.run.run []).1 = .ok a := h
  rw [value, hrun]
  rcases hp : p.run.run [] with ⟨e | b, events⟩
  · rw [hp] at hvalue
    cases hvalue
  · rw [hp] at hvalue
    cases hvalue
    show ((f a).run.run events).1 = (f a).value
    rw [hf events, value]

theorem value_bind_ok {p : Reporting ε α} {f : α → Reporting ε β} {a : α}
    (hf : ∀ a, Appends (f a)) (h : p.value = .ok a) : (p >>= f).value = (f a).value :=
  value_bind_of (hf a) h

theorem value_bind_eq_ok {p : Reporting ε α} {f : α → Reporting ε β} {b : β}
    (hf : ∀ a, Appends (f a)) (h : (p >>= f).value = .ok b) :
    ∃ a, p.value = .ok a ∧ (f a).value = .ok b := by
  rw [value_bind p hf] at h
  rcases hp : p.value with e | a
  · rw [hp] at h
    simp at h
  · rw [hp] at h
    exact ⟨a, rfl, h⟩

/-- A report that is only made in some cases does not change the result. -/
theorem value_when {c : Prop} [Decidable c] {p : Reporting ε Unit} {f : Unit → Reporting ε β}
    (hp : p.value = .ok ()) (hf : ∀ u, Appends (f u)) :
    (if c then p >>= f else f ()).value = (f ()).value := by
  split
  · exact value_bind_ok hf hp
  · rfl

@[simp] theorem value_emit (level : Level) (name : String) (fields : Keyed Value) :
    (emit level name fields : Reporting ε Unit).value = .ok () := rfl

@[simp] theorem value_pure (a : α) : (pure a : Reporting ε α).value = .ok a := rfl

@[simp] theorem value_throw (e : ε) : (throw e : Reporting ε α).value = .error e := rfl

end StreamResolver.Reporting
