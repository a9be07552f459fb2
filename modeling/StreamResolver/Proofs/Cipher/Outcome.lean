/-
  What becomes of a caller that waits.

  A caller that waits for a build is told the outcome of that build and no other, and then gets what
  the outcome owes it (`Owed`): the failure of the build, or its demand with the transform of the
  build.  `Served` holds from the moment on when it waits, and every deed keeps it that does not
  cancel this very caller.

  A demand of several ciphered values uses the transform that it was told for the first of them and
  asks again for the next.  As long as the session is not reset it finds the same transform kept.
-/
import StreamResolver.Proofs.Cipher.Deciphering
import StreamResolver.Proofs.Cipher.Waiting

namespace StreamResolver.Cipher.EventLoop

variable {σ : Type} {settings : Settings} {f : Fetcher σ}

/-! ## What one deed does to one caller -/

/-- A caller's turn is about that caller alone. -/
theorem callerTurn_others {l : EventLoop σ} (h : ∀ c ∈ l.callers, c.Shares) {i j : Nat}
    (hij : i ≠ j) : (l.callerTurn settings f i).callers[j]? = l.callers[j]? := by
  refine callerTurn_rule (P := fun l' => l'.callers[j]? = l.callers[j]?) f h ?_ ?_ ?_
  · exact fun _ => rfl
  · intro c r _
    simp [endCaller, setCaller, List.getElem?_modify_ne _ _ hij]
  · intro c d _ _ _ _
    obtain ⟨b, hcallers⟩ := waitForBuild_callers l i d
    rw [hcallers, List.getElem?_modify_ne _ _ hij]

/-- A caller's turn leaves the current build alone if there is one. -/
theorem callerTurn_current {l : EventLoop σ} (h : ∀ c ∈ l.callers, c.Shares) {i b : Nat}
    (hcur : l.current = some b) : (l.callerTurn settings f i).current = some b := by
  refine callerTurn_rule (P := fun l' => l'.current = some b) f h ?_ ?_ ?_
  · exact fun _ => hcur
  · exact fun _ _ _ => hcur
  · intro c d _ _ _ _
    rw [waitForBuild_current hcur]
    exact hcur

theorem callerTurn_refused {l : EventLoop σ} {i : Nat} {c : Caller} {d : Demand} {e : Failure}
    (hc : l.callers[i]? = some c) (hs : c.stage = .told d (.error e))
    (hlive : c.cancelled = false) :
    l.callerTurn settings f i = l.endCaller i (.error e) := by
  simp [callerTurn, hc, hs, hlive]

theorem callerTurn_done {l : EventLoop σ} {i : Nat} {c : Caller} {d : Demand} {t : Transform}
    {reply : Reply} (hc : l.callers[i]? = some c) (hs : c.stage = .told d (.ok t))
    (hlive : c.cancelled = false) (hd : d.advance settings.param.toList t = .inl reply) :
    l.callerTurn settings f i = l.endCaller i (.ok reply) := by
  simp [callerTurn, hc, hs, hlive, hd]

theorem callerTurn_more {l : EventLoop σ} {i : Nat} {c : Caller} {d d' : Demand} {t : Transform}
    (hc : l.callers[i]? = some c) (hs : c.stage = .told d (.ok t)) (hlive : c.cancelled = false)
    (hd : d.advance settings.param.toList t = .inr d') :
    l.callerTurn settings f i = l.attend settings i d' := by
  simp [callerTurn, hc, hs, hlive, hd]

/-- The caller whose stage is replaced. -/
theorem endCaller_stage {l : EventLoop σ} {i : Nat} {c : Caller} (hc : l.callers[i]? = some c)
    (r : Except Failure Reply) :
    ∃ c', (l.endCaller i r).callers[i]? = some c' ∧ c'.stage = .ended r :=
  ⟨{ c with stage := .ended r }, by simp [endCaller, setCaller, hc], rfl⟩

/-- What a deed can do to caller `i`, unless it cancels it. -/
inductive CallerStep (settings : Settings) (f : Fetcher σ) (i : Nat) (c : Caller) (e : Deed σ)
    (l l' : EventLoop σ) : Prop where
  /-- Nothing; and the build that it waits for stays the current one if the deed is no reset. -/
  | same (hc : l'.callers[i]? = some c)
      (hcurrent : ∀ b d, c.stage = .waiting b d → e ≠ .reset → l.current = some b →
        l'.current = some b)
  | takesTurn (rest : List Turn) (hq : l.queue = .caller i :: rest)
      (hturn : l' = ({ l with queue := rest } : EventLoop σ).callerTurn settings f i)
  /-- The build that it waits for is settled. -/
  | hears (b : Nat) (d : Demand) (o : Except Failure Transform) (hs : c.stage = .waiting b d)
      (ho : l.outcomeOf? b = some o)
      (hc : l'.callers[i]? = some { c with stage := .told d o }) (hsession : l'.session = l.session)

theorem settleTurn_caller {l : EventLoop σ} (hl : Attended none l) {i n : Nat} {c : Caller}
    {rest : List Turn} (hc : l.callers[i]? = some c) :
    CallerStep settings f i c .turn l
      (({ l with queue := rest } : EventLoop σ).settleTurn n) := by
  rcases ho : l.outcomeOf? n with _ | o
  · rw [settleTurn_none (l := { l with queue := rest }) ho]
    exact .same hc fun _ _ _ _ hcur => hcur
  obtain ⟨b, hb, hbo⟩ := Option.bind_eq_some_iff.mp ho
  have hsettle := settleTurn_eq (l := { l with queue := rest }) hb hbo
  obtain ⟨hsession, -, hcurrent, -⟩ := tellAll_frame n o b.waiters
    { l with queue := rest, current := if l.current = some n then none else l.current }
  have hcallers := tellAll_callers n o b.waiters
    { l with queue := rest, current := if l.current = some n then none else l.current } i
  rw [hsettle]
  by_cases htold : i ∈ b.waiters ∧ ∃ d, c.stage = .waiting n d
  · obtain ⟨hmem, d, hs⟩ := htold
    refine .hears n d o hs ho ?_ hsession
    rw [hcallers, if_pos hmem]
    show (l.callers[i]?).map _ = _
    rw [hc, Option.map_some, Caller.hear]
    simp [hs]
  · refine .same ?_ fun b' d hs _ hcur => ?_
    · rw [hcallers]
      show (if i ∈ b.waiters then (l.callers[i]?).map _ else l.callers[i]?) = _
      rw [hc]
      split
      · next hmem =>
        rcases Caller.hear_cases n o c with ⟨hsame, -⟩ | ⟨d, hs, -⟩
        · rw [Option.map_some, hsame]
        · exact absurd ⟨hmem, d, hs⟩ htold
      · rfl
    · -- a caller that waits for the settled build is among its waiters
      have hne : b' ≠ n := by
        rintro rfl
        obtain ⟨-, sb, hsb, hin, -⟩ := hl.waiting i c b' d hc hs
        rw [hb, Option.some.injEq] at hsb
        exact htold ⟨hsb ▸ hin, d, hs⟩
      rw [hcurrent]
      show (if l.current = some n then none else l.current) = some b'
      rw [hcur, if_neg (by simpa using hne)]

/-- **What a deed can do to a caller.** -/
theorem perform_caller {l : EventLoop σ} (h : InOrder settings l) (hl : Attended none l)
    {e : Deed σ} (he : e.Shares) {i : Nat} {c : Caller} (hc : l.callers[i]? = some c)
    (hcancel : e ≠ .cancel i) : CallerStep settings f i c e l (perform settings f l e) := by
  have hlt : i < l.callers.length := (List.getElem?_eq_some_iff.mp hc).1
  cases e with
  | start call =>
    refine .same ?_ fun _ _ _ _ hcur => hcur
    show (l.callers ++ [_])[i]? = some c
    rw [List.getElem?_append_left hlt, hc]
  | startAtOnce call =>
    have hnew := (h.newCaller he).callers_share
    refine .same ?_ fun b _ _ _ hcur => callerTurn_current hnew hcur
    show (callerTurn settings f l.callers.length _).callers[i]? = some c
    rw [callerTurn_others hnew (Nat.ne_of_gt hlt), List.getElem?_append_left hlt, hc]
  | cancel j =>
    have hij : j ≠ i := fun hji => hcancel (by rw [hji])
    refine .same ?_ fun b _ _ _ hcur => ?_
    · show (l.cancel j).callers[i]? = some c
      unfold cancel
      split
      · exact hc
      · exact hc
      · simpa [tell, enqueue, setCaller, List.getElem?_modify_ne _ _ hij] using hc
      · simpa [List.getElem?_modify_ne _ _ hij] using hc
    · show (l.cancel j).current = some b
      unfold cancel
      split <;> exact hcur
  | reset =>
    refine .same ?_ fun _ _ _ hreset => absurd rfl hreset
    show l.reset.callers[i]? = some c
    rw [(reset_frame l).1, hc]
  | change g => exact .same hc fun _ _ _ _ hcur => hcur
  | turn =>
    rcases hq : l.queue with _ | ⟨t, rest⟩
    · rw [perform_turn_nil hq]
      exact .same hc fun _ _ _ _ hcur => hcur
    rw [perform_turn_cons hq]
    cases t with
    | caller j =>
      by_cases hji : j = i
      · exact .takesTurn rest (by rw [hq, hji]) (by rw [hji]; rfl)
      · refine .same ?_ fun b _ _ _ hcur =>
          callerTurn_current (l := { l with queue := rest }) h.callers_share hcur
        exact (callerTurn_others (l := { l with queue := rest }) h.callers_share hji).trans hc
    | build j =>
      obtain ⟨b, hb, ho⟩ := h.pending_of_turn hq
      have hturn := buildTurn_cases settings f (l := { l with queue := rest }) hb ho
      obtain ⟨stage, t, hcallers, -⟩ := hturn.frame
      have hcurrent : (buildTurn settings f j { l with queue := rest }).current = l.current :=
        hturn.current
      refine .same ?_ fun b' _ _ _ hcur => ?_
      · show (buildTurn settings f j _).callers[i]? = some c
        rw [hcallers]
        exact hc
      · show (buildTurn settings f j _).current = some b'
        rw [hcurrent, hcur]
    | settle n => exact settleTurn_caller hl hc

/-! ## Outcomes and the kept transform stay -/

theorem outcomeOf?_stays {l : EventLoop σ} (h : InOrder settings l) {e : Deed σ} (he : e.Shares)
    {b : Nat} {o : Except Failure Transform} (ho : l.outcomeOf? b = some o) :
    (perform settings f l e).outcomeOf? b = some o := by
  rcases perform_cases settings f h he with ⟨j, rest, sb, -, -, hb, hnone, hturn⟩ | ⟨-, hkept, -⟩
  · have hne : b ≠ j := by
      rintro rfl
      rw [outcomeOf?, hb, Option.bind_some, hnone] at ho
      simp at ho
    obtain ⟨stage, -, -, hothers⟩ := hturn.stages hb
    rw [outcomeOf?_eq, hothers b hne, ← outcomeOf?_eq]
    exact ho
  · rw [outcomeOf?_of_stagesKept hkept, ho]

/-- Once the transform is kept, it takes a reset to lose it. -/
theorem transform_stays {l : EventLoop σ} (h : InOrder settings l) {e : Deed σ} (he : e.Shares)
    (hreset : e ≠ .reset) {t : Transform} (ht : l.session.cache.transform = some t) :
    (perform settings f l e).session.cache.transform = some t := by
  rcases perform_cases settings f h he with ⟨j, rest, sb, -, -, hb, hnone, -⟩ | ⟨-, -, hsession⟩
  · rw [h.pending_empty j ⟨sb, hb, hnone⟩] at ht
    simp at ht
  · rw [hsession]
    cases e with
    | reset => exact absurd rfl hreset
    | _ => exact ht

/-- Whoever needs the transform while a build is current gets what that build gives. -/
theorem InOrder.available {l : EventLoop σ} (h : InOrder settings l) {b : Nat}
    (hcur : l.current = some b) : l.available? = l.outcomeOf? b := by
  have hlt := h.current_lt b hcur
  have hb : l.builds[b]? = some l.builds[b] := List.getElem?_eq_getElem hlt
  rcases ho : l.builds[b].outcome? with _ | o
  · have hempty := h.pending_empty b ⟨_, hb, ho⟩
    simp [available?, hempty, hcur, outcomeOf?]
  · have hkept := h.current_outcome b _ o hcur hb ho
    rcases o with e | t
    · simp [available?, hkept, Except.toOption, hcur, outcomeOf?]
    · simp [available?, hkept, Except.toOption, outcomeOf?, hb, ho]

/-! ## A caller pursues its demand -/

/-- Whether a caller is after a demand: what it still needs leads to replies of the demand, and so
    does its reply if it has one. -/
def Caller.Pursues (settings : Settings) (d : Demand) (c : Caller) : Prop :=
  match c.stage with
  | .waiting _ d' | .told d' _ =>
    ∀ r, d'.Yields settings.param.toList r → d.Yields settings.param.toList r
  | .ended r => ∀ reply, r = .ok reply → d.Yields settings.param.toList reply
  | _ => False

theorem endCaller_pursues {l : EventLoop σ} {i : Nat} {c : Caller} {d : Demand}
    (hc : l.callers[i]? = some c) {r : Except Failure Reply}
    (hr : ∀ reply, r = .ok reply → d.Yields settings.param.toList reply) :
    ∃ c', (l.endCaller i r).callers[i]? = some c' ∧ Caller.Pursues settings d c' :=
  ⟨{ c with stage := .ended r }, by simp [endCaller, setCaller, hc], hr⟩

theorem attend_pursues {l : EventLoop σ} {i : Nat} {c : Caller} {d d' : Demand}
    (hc : l.callers[i]? = some c)
    (hd : ∀ r, d'.Yields settings.param.toList r → d.Yields settings.param.toList r) :
    ∃ c', (l.attend settings i d').callers[i]? = some c' ∧ Caller.Pursues settings d c' := by
  unfold attend
  rcases l.available? with _ | e | t
  · obtain ⟨b, hcallers⟩ := waitForBuild_callers l i d'
    exact ⟨{ c with stage := .waiting b d' }, by simp [hcallers, hc], hd⟩
  · exact endCaller_pursues hc (by simp)
  · refine endCaller_pursues hc fun reply hreply => ?_
    rw [Except.ok.injEq] at hreply
    exact hd reply (hreply ▸ Demand.yields_complete t d')

/-- A caller's turn brings it nearer to a reply of its demand. -/
theorem callerTurn_pursues {l : EventLoop σ} {i : Nat} {c : Caller} {d : Demand}
    (hc : l.callers[i]? = some c) (h : Caller.Pursues settings d c) :
    ∃ c', (l.callerTurn settings f i).callers[i]? = some c' ∧ Caller.Pursues settings d c' := by
  unfold Caller.Pursues at h
  unfold callerTurn
  simp only [hc]
  rcases hs : c.stage with _ | r | ⟨b, d'⟩ | ⟨d', e | t⟩ | r <;> rw [hs] at h <;>
    rcases hk : c.cancelled <;> simp only at h ⊢
  · exact ⟨c, hc, by rw [Caller.Pursues, hs]; exact h⟩
  · exact ⟨c, hc, by rw [Caller.Pursues, hs]; exact h⟩
  · exact endCaller_pursues hc (by simp)
  · exact endCaller_pursues hc (by simp)
  · rcases hd : d'.advance settings.param.toList t with reply | d''
    · refine endCaller_pursues hc fun reply' hreply => ?_
      rw [Except.ok.injEq] at hreply
      exact h reply' (hreply ▸ .last hd)
    · exact attend_pursues hc fun r hr => h r (.more hd hr)
  · exact endCaller_pursues hc (by simp)
  · exact ⟨c, hc, by rw [Caller.Pursues, hs]; exact h⟩
  · exact ⟨c, hc, by rw [Caller.Pursues, hs]; exact h⟩

theorem perform_pursues {l : EventLoop σ} (h : InOrder settings l) (hl : Attended none l)
    {e : Deed σ} (he : e.Shares) {i : Nat} {c : Caller} {d : Demand}
    (hc : l.callers[i]? = some c) (hcancel : e ≠ .cancel i) (hd : Caller.Pursues settings d c) :
    ∃ c', (perform settings f l e).callers[i]? = some c' ∧ Caller.Pursues settings d c' := by
  rcases perform_caller (f := f) h hl he hc hcancel with
    ⟨hc', -⟩ | ⟨rest, -, hturn⟩ | ⟨b, d', o, hs, -, hc', -⟩
  · exact ⟨c, hc', hd⟩
  · rw [hturn]
    exact callerTurn_pursues (l := { l with queue := rest }) hc hd
  · refine ⟨_, hc', ?_⟩
    rw [Caller.Pursues, hs] at hd
    exact hd

/-! ## A caller that waits is served -/

/-- What the outcome of a build owes to a demand.  When the session is steady, the whole demand is
    owed its reply; else a demand that the transform completes at once. -/
def Owed (settings : Settings) (d : Demand) (steady : Prop) (o : Except Failure Transform)
    (r : Except Failure Reply) : Prop :=
  match o with
  | .error e => r = .error e
  | .ok t =>
    (∃ reply, d.advance settings.param.toList t = .inl reply ∧ r = .ok reply) ∨
      (steady ∧ r = .ok (d.complete settings.param.toList t))

/-- A caller that waits for a build, has heard of its outcome, or has got what it is owed. -/
inductive Served (settings : Settings) (i b : Nat) (d : Demand) (steady : Prop)
    (l : EventLoop σ) : Prop where
  | waits (c : Caller) (hc : l.callers[i]? = some c) (hs : c.stage = .waiting b d)
      (hcurrent : steady → l.current = some b)
  | hears (c : Caller) (o : Except Failure Transform) (hc : l.callers[i]? = some c)
      (hs : c.stage = .told d o) (hlive : c.cancelled = false) (ho : l.outcomeOf? b = some o)
      (hkept : steady → ∀ t, o = .ok t → l.session.cache.transform = some t)
  | done (o : Except Failure Transform) (ho : l.outcomeOf? b = some o)
      (hended : ∀ r, Owed settings d steady o r →
        ∃ c, l.callers[i]? = some c ∧ c.stage = .ended r)
      (hmore : ∀ t d', o = .ok t → d.advance settings.param.toList t = .inr d' →
        ∃ c, l.callers[i]? = some c ∧ Caller.Pursues settings d' c)

/-- On the turn on which a caller takes the outcome it gets what it is owed. -/
theorem ended_of_turn {i : Nat} {d : Demand} {steady : Prop} {l : EventLoop σ} {c : Caller}
    {o : Except Failure Transform} {r : Except Failure Reply} (hc : l.callers[i]? = some c)
    (hs : c.stage = .told d o) (hlive : c.cancelled = false)
    (hkept : steady → ∀ t, o = .ok t → l.session.cache.transform = some t)
    (hr : Owed settings d steady o r) :
    ∃ c', (l.callerTurn settings f i).callers[i]? = some c' ∧ c'.stage = .ended r := by
  rcases o with e | t
  · rw [callerTurn_refused hc hs hlive, show r = .error e from hr]
    exact endCaller_stage hc _
  · obtain ⟨hdone, hleft⟩ := @Demand.advance_complete settings.param.toList t d
    rcases hadvance : d.advance settings.param.toList t with reply | d'
    · have hreply : r = .ok reply := by
        rcases hr with ⟨reply', hadvance', rfl⟩ | ⟨-, rfl⟩
        · rw [hadvance, Sum.inl.injEq] at hadvance'
          rw [hadvance']
        · rw [hdone reply hadvance]
      rw [callerTurn_done hc hs hlive hadvance, hreply]
      exact endCaller_stage hc _
    · -- more is needed, and the transform is still kept
      rcases hr with ⟨reply', hadvance', -⟩ | ⟨hsteady, rfl⟩
      · rw [hadvance] at hadvance'
        simp at hadvance'
      · have havailable : l.available? = some (.ok t) := by
          simp [available?, hkept hsteady t rfl]
        rw [callerTurn_more hc hs hlive hadvance, attend, havailable]
        rw [← hleft d' hadvance]
        exact endCaller_stage hc _

theorem served_of_turn {i b : Nat} {d : Demand} {steady : Prop} {l : EventLoop σ} {c : Caller}
    {o : Except Failure Transform} (hc : l.callers[i]? = some c) (hs : c.stage = .told d o)
    (hlive : c.cancelled = false)
    (hafter : (l.callerTurn settings f i).outcomeOf? b = some o)
    (hkept : steady → ∀ t, o = .ok t → l.session.cache.transform = some t) :
    Served settings i b d steady (l.callerTurn settings f i) := by
  refine .done o hafter (fun r hr => ended_of_turn hc hs hlive hkept hr) ?_
  rintro t d' rfl hadvance
  rw [callerTurn_more hc hs hlive hadvance]
  exact attend_pursues hc fun r hr => hr

/-- **One deed**: a caller that is served stays so, unless the deed cancels it. -/
theorem Served.perform {i b : Nat} {d : Demand} {steady : Prop} {l : EventLoop σ}
    (hserved : Served settings i b d steady l) (h : InOrder settings l) (hl : Attended none l)
    {e : Deed σ} (he : e.Shares) (hcancel : e ≠ .cancel i) (hreset : steady → e ≠ .reset) :
    Served settings i b d steady (EventLoop.perform settings f l e) := by
  cases hserved with
  | waits c hc hs hcurrent =>
    rcases perform_caller (f := f) h hl he hc hcancel with
      ⟨hc', hcurrent'⟩ | ⟨rest, hq, hturn⟩ | ⟨n, d', o, hs', ho, hc', hsession⟩
    · exact .waits c hc' hs fun hsteady =>
        hcurrent' b d hs (hreset hsteady) (hcurrent hsteady)
    · have hrests : ({ l with queue := rest } : EventLoop σ).callerTurn settings f i =
          { l with queue := rest } := by
        simp [EventLoop.callerTurn, hc, hs]
      rw [hturn, hrests]
      exact .waits c hc hs hcurrent
    · rw [hs, CallerStage.waiting.injEq] at hs'
      obtain ⟨rfl, rfl⟩ := hs'
      refine .hears _ o hc' rfl (hl.waiting i c b d hc hs).1 (outcomeOf?_stays h he ho) ?_
      rintro hsteady t rfl
      obtain ⟨sb, hsb, hsbo⟩ := Option.bind_eq_some_iff.mp ho
      rw [hsession]
      exact h.current_outcome b sb _ (hcurrent hsteady) hsb hsbo
  | hears c o hc hs hlive ho hkept =>
    have hkept' : steady → ∀ t, o = .ok t →
        (EventLoop.perform settings f l e).session.cache.transform = some t :=
      fun hsteady t ht => transform_stays h he (hreset hsteady) (hkept hsteady t ht)
    have ho' : (EventLoop.perform settings f l e).outcomeOf? b = some o :=
      outcomeOf?_stays h he ho
    rcases perform_caller (f := f) h hl he hc hcancel with
      ⟨hc', -⟩ | ⟨rest, hq, hturn⟩ | ⟨n, d', o', hs', -⟩
    · exact .hears c o hc' hs hlive ho' hkept'
    · rw [hturn] at ho' ⊢
      exact served_of_turn (l := { l with queue := rest }) hc hs hlive ho' hkept
    · rw [hs] at hs'
      simp at hs'
  | done o ho hended hmore =>
    refine .done o (outcomeOf?_stays h he ho) (fun r hr => ?_) fun t d' ht hadvance => ?_
    · obtain ⟨c, hc, hs⟩ := hended r hr
      rcases perform_caller (f := f) h hl he hc hcancel with
        ⟨hc', -⟩ | ⟨rest, hq, hturn⟩ | ⟨n, d', o', hs', -⟩
      · exact ⟨c, hc', hs⟩
      · have hrests : ({ l with queue := rest } : EventLoop σ).callerTurn settings f i =
            { l with queue := rest } := by
          simp [EventLoop.callerTurn, hc, hs]
        rw [hturn, hrests]
        exact ⟨c, hc, hs⟩
      · rw [hs] at hs'
        simp at hs'
    · obtain ⟨c, hc, hpursues⟩ := hmore t d' ht hadvance
      exact perform_pursues h hl he hc hcancel hpursues

/-- What a caller that is served has got when it has ended. -/
theorem Served.reply {i b : Nat} {d : Demand} {steady : Prop} {l : EventLoop σ}
    (h : Served settings i b d steady l) {c : Caller} {r : Except Failure Reply}
    (hc : l.callers[i]? = some c) (hr : c.stage = .ended r) :
    ∃ o, l.outcomeOf? b = some o ∧ (∀ r', Owed settings d steady o r' → r = r') ∧
      ∀ t d' reply, o = .ok t → d.advance settings.param.toList t = .inr d' → r = .ok reply →
        d'.Yields settings.param.toList reply := by
  cases h with
  | waits c' hc' hs _ =>
    rw [hc, Option.some.injEq] at hc'
    rw [← hc', hr] at hs
    simp at hs
  | hears c' o hc' hs _ _ _ =>
    rw [hc, Option.some.injEq] at hc'
    rw [← hc', hr] at hs
    simp at hs
  | done o ho hended hmore =>
    refine ⟨o, ho, fun r' hr' => ?_, fun t d' reply ht hadvance hreply => ?_⟩
    · obtain ⟨c', hc', hs⟩ := hended r' hr'
      rw [hc, Option.some.injEq] at hc'
      rw [← hc', hr, CallerStage.ended.injEq] at hs
      exact hs
    · obtain ⟨c', hc', hpursues⟩ := hmore t d' ht hadvance
      rw [hc, Option.some.injEq] at hc'
      rw [← hc', Caller.Pursues, hr] at hpursues
      exact hpursues reply hreply

/-- **Every run**: a caller that waits for a build is served, unless it is cancelled. -/
theorem run_served {i b : Nat} {d : Demand} {steady : Prop} {ds : List (Deed σ)}
    (hds : ∀ e ∈ ds, e.Shares ∧ e ≠ .cancel i ∧ (steady → e ≠ .reset)) {l : EventLoop σ}
    (h : InOrder settings l) (hl : Attended none l) (hserved : Served settings i b d steady l) :
    Served settings i b d steady (run settings f ds l) := by
  have hrun := run_invariant (f := f)
    (P := fun l => InOrder settings l ∧ Attended none l ∧ Served settings i b d steady l)
    (Q := fun e : Deed σ => e.Shares ∧ e ≠ .cancel i ∧ (steady → e ≠ .reset))
    (fun _ _ hl he => ⟨hl.1.perform he.1, hl.2.1.perform hl.1 he.1,
      hl.2.2.perform hl.1 hl.2.1 he.1 he.2.1 he.2.2⟩) hds ⟨h, hl, hserved⟩
  exact hrun.2.2

end StreamResolver.Cipher.EventLoop
