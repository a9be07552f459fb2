/-
  Actions: computations that change a state, report events and may fail.

  An action takes the state it starts from and gives its outcome: a value or a failure, the state it
  leaves and the events it reported.  A failure undoes nothing, so the state and the events of a
  failed action are as much part of its outcome as its failure.

  Statements: `bind_ok` and `bind_error` (the outcome of two actions in sequence).
-/
import StreamResolver.Failure
import StreamResolver.Log.Event

namespace StreamResolver

/-- What an action leaves behind. -/
structure Outcome (σ α : Type) where
  result : Except Failure α
  state : σ
  events : List Event

/-- A computation over a state. -/
def Action (σ α : Type) : Type := σ → Outcome σ α

namespace Action

variable {σ τ α β : Type}

/-- Do nothing and give a value. -/
def give (a : α) : Action σ α := fun s => ⟨.ok a, s, []⟩

/-- Fail. -/
def fail (e : Failure) : Action σ α := fun s => ⟨.error e, s, []⟩

/-- One action and, if it succeeds, another one that depends on its value. -/
def andThen (p : Action σ α) (f : α → Action σ β) : Action σ β := fun s =>
  match p s with
  | ⟨.error e, s, events⟩ => ⟨.error e, s, events⟩
  | ⟨.ok a, s, events⟩ =>
    let o := f a s
    { o with events := events ++ o.events }

instance : Monad (Action σ) where
  pure := give
  bind := andThen

/-- The state. -/
def get : Action σ σ := fun s => ⟨.ok s, s, []⟩

/-- Change the state. -/
def modify (f : σ → σ) : Action σ Unit := fun s => ⟨.ok (), f s, []⟩

/-- Report an event. -/
def emit (level : Level) (name : String) (fields : Keyed Value) : Action σ Unit :=
  fun s => ⟨.ok (), s, [⟨level, name, fields⟩]⟩

/-- A computation without state. -/
def ofReporting (p : Reporting Failure α) : Action σ α := fun s =>
  let (result, events) := p.result
  ⟨result, s, events⟩

/-- A value, or a failure that is not announced. -/
def ofFault (r : Except Fault α) : Action σ α := fun s => ⟨r.mapError .fault, s, []⟩

/-- The result of an action, whether it succeeded or not. -/
def attempt (p : Action σ α) : Action σ (Except Failure α) := fun s =>
  let o := p s
  ⟨.ok o.result, o.state, o.events⟩

/-- Give the value of a result, or fail with its failure. -/
def ofResult (r : Except Failure α) : Action σ α := fun s => ⟨r, s, []⟩

/-- An action on a part of a state. -/
def onPart (part : τ → σ) (replace : σ → τ → τ) (p : Action σ α) : Action τ α := fun t =>
  let o := p (part t)
  ⟨o.result, replace o.state t, o.events⟩

/-! ## Laws -/

theorem bind_ok {p : Action σ α} {f : α → Action σ β} {s s' : σ} {a : α} {events : List Event}
    (h : p s = ⟨.ok a, s', events⟩) :
    (p >>= f) s = { f a s' with events := events ++ (f a s').events } := by
  show andThen p f s = _
  simp [andThen, h]

theorem bind_error {p : Action σ α} {f : α → Action σ β} {s s' : σ} {e : Failure}
    {events : List Event} (h : p s = ⟨.error e, s', events⟩) :
    (p >>= f) s = ⟨.error e, s', events⟩ := by
  show andThen p f s = _
  simp [andThen, h]

theorem ofFault_ok {r : Except Fault α} {a : α} (h : r = .ok a) (s : σ) :
    ofFault r s = ⟨.ok a, s, []⟩ := by
  rw [ofFault, h]
  rfl

theorem ofFault_error {r : Except Fault α} {f : Fault} (h : r = .error f) (s : σ) :
    ofFault r s = ⟨.error (.fault f), s, []⟩ := by
  rw [ofFault, h]
  rfl

end Action

end StreamResolver
