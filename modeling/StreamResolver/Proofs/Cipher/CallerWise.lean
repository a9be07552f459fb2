/-
  What is said of callers one by one.

  Many things that are said of a caller only depend on how far it is: that it has begun, that it
  needs the transform at most once more, that it does not read the script.  Such a property
  (`CallerWise`) is kept by every deed as soon as it survives the things that happen to a caller: it
  comes, it is marked as cancelled, it ends, it reads the script on its own account, it waits for a
  build because it needs the transform, and it is told the outcome of the build that it waits for.
-/
import StreamResolver.Proofs.Cipher.Callers
import StreamResolver.Proofs.Cipher.Frame

namespace StreamResolver.Cipher.EventLoop

variable {σ : Type} {settings : Settings} {f : Fetcher σ} {l : EventLoop σ}
  {G : Nat → Caller → Prop}

/-- What happens to a caller that has come keeps the property; `i` is its number. -/
structure CallerWise (settings : Settings) (G : Nat → Caller → Prop) : Prop where
  marked : ∀ i c, G i c → G i { c with cancelled := true }
  ended : ∀ i c r, G i c → G i { c with stage := .ended r }
  waiting : ∀ i c b d, c.Needs settings d → c.cancelled = false → G i c →
    G i { c with stage := .waiting b d }
  told : ∀ i c b d o, c.stage = .waiting b d → G i c → G i { c with stage := .told d o }
  reading : ∀ i c r, ((c.stage = .unstarted ∧ c.call = .script) ∨ ∃ r', c.stage = .reading r') →
    c.cancelled = false → G i c → G i { c with stage := .reading r }

/-- Every caller has the property. -/
def AllCallers (G : Nat → Caller → Prop) (l : EventLoop σ) : Prop :=
  ∀ i c, l.callers[i]? = some c → G i c

theorem allCallers_fresh (world : σ) : AllCallers G (fresh world) := by
  intro i c hc
  simp [fresh] at hc

namespace AllCallers

theorem modify (h : AllCallers G l) {i : Nat} {g : Caller → Caller}
    (hg : ∀ c, l.callers[i]? = some c → G i c → G i (g c)) :
    AllCallers G { l with callers := l.callers.modify i g } := by
  intro j c hc
  simp only [List.getElem?_modify] at hc
  obtain ⟨c', hc', rfl⟩ := Option.map_eq_some_iff.mp hc
  split
  · next hij =>
    subst hij
    exact hg c' hc' (h i c' hc')
  · exact h j c' hc'

theorem newCaller (h : AllCallers G l) {call : Call} (hnew : G l.callers.length { call }) :
    AllCallers G { l with callers := l.callers ++ [({ call } : Caller)] } := by
  intro j c hc
  rcases getElem?_concat_cases hc with hold | ⟨rfl, rfl⟩
  · exact h j c hold
  · exact hnew

theorem waitForBuild (hG : CallerWise settings G) (h : AllCallers G l) {i : Nat} {c : Caller}
    {d : Demand} (hc : l.callers[i]? = some c) (hd : c.Needs settings d)
    (hlive : c.cancelled = false) : AllCallers G (l.waitForBuild i d) := by
  rcases hcur : l.current with _ | n
  · rw [waitForBuild_fresh hcur]
    refine modify (l := { l with
      builds := l.builds ++ [({ waiters := [i] } : SharedBuild)]
      current := some l.builds.length
      queue := l.queue ++ [Turn.build l.builds.length] }) h fun c' hc' hold => ?_
    obtain rfl : c = c' := Option.some.inj (hc.symm.trans hc')
    exact hG.waiting i c _ d hd hlive hold
  · rw [waitForBuild_current hcur]
    refine modify (l := { l with builds := l.builds.modify n fun build =>
      { build with waiters := build.waiters ++ [i] } }) h fun c' hc' hold => ?_
    obtain rfl : c = c' := Option.some.inj (hc.symm.trans hc')
    exact hG.waiting i c _ d hd hlive hold

theorem callerTurn (hG : CallerWise settings G) (h : AllCallers G l) (i : Nat) :
    AllCallers G (l.callerTurn settings f i) := by
  rcases hc : l.callers[i]? with _ | c
  · rwa [callerTurn_none hc]
  have hends : ∀ (l' : EventLoop σ) r, l'.callers = l.callers → AllCallers G (l'.endCaller i r) := by
    intro l' r hcallers
    have h' : AllCallers G l' := fun j c hj => h j c (hcallers ▸ hj)
    exact h'.modify fun c' _ hc' => hG.ended i c' r hc'
  have hreads : ∀ (l' : EventLoop σ) r, l'.callers = l.callers →
      ((c.stage = .unstarted ∧ c.call = .script) ∨ ∃ r', c.stage = .reading r') →
      c.cancelled = false → AllCallers G ((l'.setCaller i (.reading r)).enqueue (.caller i)) := by
    intro l' r hcallers hs hlive
    have h' : AllCallers G l' := fun j c hj => h j c (hcallers ▸ hj)
    refine h'.modify fun c' hc' hold => ?_
    obtain rfl : c = c' := Option.some.inj (hc.symm.trans (hcallers ▸ hc'))
    exact hG.reading i c r hs hlive hold
  have hturn := callerTurn_does settings f hc
  generalize l.callerTurn settings f i = l' at hturn
  cases hturn with
  | rests _ => exact h
  | waits d hd hlive _ => exact h.waitForBuild hG hc hd hlive
  | asksForPage _ hs hcall hlive _ => exact hreads _ _ rfl (.inl ⟨hs, hcall⟩) hlive
  | asksForSource _ _ _ _ _ hs hlive _ _ => exact hreads _ _ rfl (.inr ⟨_, hs⟩) hlive
  | takesScript _ _ _ _ _ _ _ _ => exact hends _ _ rfl
  | refused _ _ _ _ _ => exact hends _ _ rfl
  | _ => exact hends l _ rfl

/-- Whoever is told an outcome waited for it, and nothing happens to the others. -/
theorem tellAll {G' : Nat → Caller → Prop} (h : AllCallers G l) {b : Nat}
    {o : Except Failure Transform} (hstay : ∀ i c, G i c → G' i c)
    (htold : ∀ i c d, c.stage = .waiting b d → G i c → G' i { c with stage := .told d o })
    (is : List Nat) : AllCallers G' (EventLoop.tellAll b o is l) := by
  intro j c hc
  rw [tellAll_callers] at hc
  split at hc
  · obtain ⟨c', hc', rfl⟩ := Option.map_eq_some_iff.mp hc
    rcases Caller.hear_cases b o c' with ⟨hsame, -⟩ | ⟨d, hs, heard⟩
    · rw [hsame]
      exact hstay j c' (h j c' hc')
    · rw [heard]
      exact htold j c' d hs (h j c' hc')
  · exact hstay j c (h j c hc)

theorem settleTurn (hG : CallerWise settings G) (h : AllCallers G l) (i : Nat) :
    AllCallers G (l.settleTurn i) := by
  rcases ho : l.outcomeOf? i with _ | o
  · rw [settleTurn_none ho]
    exact h
  obtain ⟨b, hb, hbo⟩ := Option.bind_eq_some_iff.mp ho
  rw [settleTurn_eq hb hbo]
  exact tellAll (l := { l with current := if l.current = some i then none else l.current }) h
    (fun _ _ hc => hc) (fun j c d hs => hG.told j c i d o hs) b.waiters

theorem buildTurn (h : AllCallers G l) (i : Nat) : AllCallers G (l.buildTurn settings f i) := by
  refine buildTurn_rule (fun _ => h) fun b l' _ _ hturn => ?_
  obtain ⟨stage, t, hcallers, -⟩ := hturn.frame
  intro j c hc
  rw [hcallers] at hc
  exact h j c hc

theorem cancel (hG : CallerWise settings G) (h : AllCallers G l) (i : Nat) :
    AllCallers G (l.cancel i) := by
  rcases hc : l.callers[i]? with _ | c
  · simpa [EventLoop.cancel, callerStage?, hc] using h
  have hstage : l.callerStage? i = some c.stage := by rw [callerStage?, hc, Option.map_some]
  unfold EventLoop.cancel
  rw [hstage]
  rcases hs : c.stage with _ | r | ⟨b, d⟩ | ⟨d, o⟩ | r
  · exact h.modify fun c' _ hc' => hG.marked i c' hc'
  · exact h.modify fun c' _ hc' => hG.marked i c' hc'
  · refine h.modify fun c' hc' hold => ?_
    obtain rfl : c = c' := Option.some.inj (hc.symm.trans hc')
    exact hG.told i c b d _ hs hold
  · exact h.modify fun c' _ hc' => hG.marked i c' hc'
  · exact h

/-- One turn keeps what is said of the callers. -/
theorem takeTurn (hG : CallerWise settings G) (h : AllCallers G l) :
    AllCallers G (l.takeTurn settings f) := by
  unfold EventLoop.takeTurn
  rcases l.queue with _ | ⟨t, rest⟩
  · exact h
  · cases t with
    | caller i => exact callerTurn (l := { l with queue := rest }) hG h i
    | build i => exact buildTurn (l := { l with queue := rest }) h i
    | settle i => exact settleTurn (l := { l with queue := rest }) hG h i

/-- **One deed** keeps what is said of the callers, if it is true of whoever comes. -/
theorem perform (hG : CallerWise settings G) (h : AllCallers G l) {d : Deed σ}
    (hnew : ∀ call, d = .start call ∨ d = .startAtOnce call → G l.callers.length { call }) :
    AllCallers G (EventLoop.perform settings f l d) := by
  cases d with
  | start call => exact h.newCaller (hnew call (.inl rfl))
  | startAtOnce call =>
    exact callerTurn (l := { l with callers := l.callers ++ [({ call } : Caller)] }) hG
      (h.newCaller (hnew call (.inr rfl))) l.callers.length
  | cancel i => exact cancel hG h i
  | reset =>
    intro i c hc
    rw [show EventLoop.perform settings f l .reset = l.reset from rfl, (reset_frame l).1] at hc
    exact h i c hc
  | change g => exact h
  | turn => exact takeTurn hG h

end AllCallers

/-- **Every run** keeps what is said of the callers. -/
theorem run_allCallers (hG : CallerWise settings G) {ds : List (Deed σ)}
    (hnew : ∀ i call, .start call ∈ ds ∨ .startAtOnce call ∈ ds → G i { call })
    (h : AllCallers G l) : AllCallers G (run settings f ds l) := by
  refine run_invariant (fun l d hl hd => hl.perform hG fun call hcall => ?_) (fun d hd => hd) h
  refine hnew _ call ?_
  rcases hcall with rfl | rfl
  · exact .inl hd
  · exact .inr hd

end StreamResolver.Cipher.EventLoop
