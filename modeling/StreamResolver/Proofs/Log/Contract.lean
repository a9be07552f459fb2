/-
  What an action keeps to.

  `p.KeepsTo I Q E` is the contract of an action: begun in a state of which `I` holds it leaves one
  of which `I` holds, and it ends with a value of which `Q` holds or with a failure of which `E`
  holds.  There is one rule for each way in which actions are made, so the contract of a function is
  proved along its text; a function that calls another one only uses the contract of that one.

  `I` is an invariant and not a pair of conditions: an action may be left in the middle by a
  failure, and what is then said of the state has to hold at each step anyhow.

  A computation of `Reporting` has no state that matters, only the events so far, so its contract
  `p.EndsWith Q E` is about its value and its failure alone.
-/
import StreamResolver.Log.Action
import StreamResolver.Proofs.Log.Reporting

namespace StreamResolver

namespace Reporting

variable {ε α β : Type} {Q Q' : α → Prop} {R : β → Prop} {E E' : ε → Prop}

/-- Whatever was reported before, a value and a failure are of the given kinds. -/
def EndsWith (p : Reporting ε α) (Q : α → Prop) (E : ε → Prop) : Prop :=
  ∀ events, (∀ a, (p.run.run events).1 = .ok a → Q a) ∧
    ∀ e, (p.run.run events).1 = .error e → E e

theorem EndsWith.weaken {p : Reporting ε α} (h : p.EndsWith Q E) (hQ : ∀ a, Q a → Q' a)
    (hE : ∀ e, E e → E' e) : p.EndsWith Q' E' := fun events =>
  ⟨fun a ha => hQ a ((h events).1 a ha), fun e he => hE e ((h events).2 e he)⟩

theorem endsWith_pure {a : α} (h : Q a) : (pure a : Reporting ε α).EndsWith Q E := by
  refine fun _ => ⟨fun a' ha' => ?_, fun e he => ?_⟩
  · cases ha'
    exact h
  · cases he

theorem endsWith_throw {e : ε} (h : E e) : (throw e : Reporting ε α).EndsWith Q E := by
  refine fun _ => ⟨fun a ha => ?_, fun e' he' => ?_⟩
  · cases ha
  · cases he'
    exact h

theorem endsWith_emit (level : Level) (name : String) (fields : Keyed Value) :
    (emit level name fields : Reporting ε Unit).EndsWith (fun _ => True) E := by
  refine fun _ => ⟨fun _ _ => trivial, fun e he => ?_⟩
  cases he

/-- **Computations in sequence**: the second one has to keep its contract for the values of the
    first. -/
theorem EndsWith.bind {p : Reporting ε β} {f : β → Reporting ε α} (hp : p.EndsWith R E)
    (hf : ∀ b, R b → (f b).EndsWith Q E) : (p >>= f).EndsWith Q E := by
  intro events
  obtain ⟨hvalue, hfailure⟩ := hp events
  rw [run_bind]
  rcases hrun : p.run.run events with ⟨e | b, events'⟩
  · rw [hrun] at hfailure
    refine ⟨fun a ha => ?_, fun e' he' => ?_⟩
    · cases ha
    · cases he'
      exact hfailure e rfl
  · rw [hrun] at hvalue
    exact hf b (hvalue b rfl) events'

/-- A report that is only made in some cases. -/
theorem EndsWith.when {c : Prop} [Decidable c] {p : Reporting ε Unit} {f : Unit → Reporting ε α}
    (hp : p.EndsWith (fun _ => True) E) (hf : ∀ u, (f u).EndsWith Q E) :
    (if c then p >>= f else f ()).EndsWith Q E := by
  split
  · exact hp.bind fun u _ => hf u
  · exact hf ()

/-- A computation that is blind to the events ends as it ends without any. -/
theorem Appends.endsWith {p : Reporting ε α} (h : p.Appends) (hQ : ∀ a, p.value = .ok a → Q a)
    (hE : ∀ e, p.value = .error e → E e) : p.EndsWith Q E := by
  intro events
  rw [h events]
  exact ⟨hQ, hE⟩

end Reporting

namespace Action

variable {σ τ α β : Type} {I : σ → Prop} {Q Q' : α → Prop} {R : β → Prop} {E E' : Failure → Prop}

/-- The invariant is kept, and a value and a failure are of the given kinds. -/
def KeepsTo (p : Action σ α) (I : σ → Prop) (Q : α → Prop) (E : Failure → Prop) : Prop :=
  ∀ s, I s → I (p s).state ∧ (∀ a, (p s).result = .ok a → Q a) ∧
    ∀ e, (p s).result = .error e → E e

/-- Every action keeps to a contract that asks for nothing. -/
theorem keepsTo_trivial (p : Action σ α) :
    p.KeepsTo (fun _ => True) (fun _ => True) (fun _ => True) :=
  fun _ _ => ⟨trivial, fun _ _ => trivial, fun _ _ => trivial⟩

theorem KeepsTo.weaken {p : Action σ α} (h : p.KeepsTo I Q E) (hQ : ∀ a, Q a → Q' a)
    (hE : ∀ e, E e → E' e) : p.KeepsTo I Q' E' := by
  intro s hs
  obtain ⟨hstate, hvalue, hfailure⟩ := h s hs
  exact ⟨hstate, fun a ha => hQ a (hvalue a ha), fun e he => hE e (hfailure e he)⟩

theorem keepsTo_pure {a : α} (h : Q a) : (pure a : Action σ α).KeepsTo I Q E := by
  intro s hs
  refine ⟨hs, fun a' ha' => ?_, fun e he => ?_⟩
  · cases ha'
    exact h
  · cases he

theorem keepsTo_fail {e : Failure} (h : E e) : (fail e : Action σ α).KeepsTo I Q E := by
  intro s hs
  refine ⟨hs, fun a ha => ?_, fun e' he' => ?_⟩
  · cases ha
  · cases he'
    exact h

/-- **Actions in sequence**: the second one has to keep to the contract for the values of the
    first. -/
theorem KeepsTo.bind {p : Action σ β} {f : β → Action σ α} (hp : p.KeepsTo I R E)
    (hf : ∀ b, R b → (f b).KeepsTo I Q E) : (p >>= f).KeepsTo I Q E := by
  intro s hs
  obtain ⟨hstate, hvalue, hfailure⟩ := hp s hs
  rcases hrun : p s with ⟨e | b, s', events⟩
  · rw [hrun] at hstate hfailure
    rw [bind_error hrun]
    refine ⟨hstate, fun a ha => ?_, fun e' he' => ?_⟩
    · cases ha
    · cases he'
      exact hfailure e rfl
  · rw [hrun] at hstate hvalue
    rw [bind_ok hrun]
    exact hf b (hvalue b rfl) s' hstate

theorem keepsTo_get : (get : Action σ σ).KeepsTo I I E := by
  intro s hs
  refine ⟨hs, fun a ha => ?_, fun e he => ?_⟩
  · cases ha
    exact hs
  · cases he

theorem keepsTo_modify {g : σ → σ} (h : ∀ s, I s → I (g s)) :
    (modify g : Action σ Unit).KeepsTo I (fun _ => True) E := by
  intro s hs
  refine ⟨h s hs, fun _ _ => trivial, fun e he => ?_⟩
  cases he

theorem keepsTo_emit (level : Level) (name : String) (fields : Keyed Value) :
    (emit level name fields : Action σ Unit).KeepsTo I (fun _ => True) E := by
  intro s hs
  refine ⟨hs, fun _ _ => trivial, fun e he => ?_⟩
  cases he

theorem keepsTo_ofFault {r : Except Fault α} (hok : ∀ a, r = .ok a → Q a)
    (hfault : ∀ f, r = .error f → E (.fault f)) : (ofFault r : Action σ α).KeepsTo I Q E := by
  intro s hs
  rcases r with f | a
  · refine ⟨hs, fun a ha => ?_, fun e he => ?_⟩
    · cases ha
    · cases he
      exact hfault f rfl
  · refine ⟨hs, fun a' ha' => ?_, fun e he => ?_⟩
    · cases ha'
      exact hok a rfl
    · cases he

theorem keepsTo_ofReporting {r : Reporting Failure α} (h : r.EndsWith Q E) :
    (ofReporting r : Action σ α).KeepsTo I Q E :=
  fun _ hs => ⟨hs, h []⟩

/-- An attempt does not fail: it gives the value or the failure. -/
theorem KeepsTo.attempt {p : Action σ α} (h : p.KeepsTo I Q E) :
    p.attempt.KeepsTo I (fun r => (∀ a, r = .ok a → Q a) ∧ ∀ e, r = .error e → E e) E' := by
  intro s hs
  obtain ⟨hstate, hvalue, hfailure⟩ := h s hs
  refine ⟨hstate, fun r hr => ?_, fun e he => ?_⟩
  · cases hr
    exact ⟨hvalue, hfailure⟩
  · cases he

/-- An action on a part of a state keeps to what holds of its outcome there. -/
theorem keepsTo_onPart {J : τ → Prop} {part : τ → σ} {replace : σ → τ → τ} {p : Action σ α}
    (h : ∀ t, J t → J (replace (p (part t)).state t) ∧ (∀ a, (p (part t)).result = .ok a → Q a) ∧
      ∀ e, (p (part t)).result = .error e → E e) : (onPart part replace p).KeepsTo J Q E :=
  fun t ht => h t ht

end Action

end StreamResolver
