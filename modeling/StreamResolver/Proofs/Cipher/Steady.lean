/-
  A session that is left alone.

  While nothing but turns happens to a session, and callers that come and go, every outcome that a
  caller was told is still good: the transform that it names is the one that is kept (`Steady`).
  This does not need the session to have been in order at the start; it may have kept a script that
  some caller has read.

  Two more things are true as long as no caller is cancelled: a build that has not ended has
  somebody who waits for it (`Wanted`), so when all callers have ended, nothing more happens to the
  session.
-/
import StreamResolver.Proofs.Cipher.CallerWise
import StreamResolver.Proofs.Cipher.Outcome
import StreamResolver.Proofs.Cipher.Progress

namespace StreamResolver.Cipher.EventLoop

variable {σ : Type} {settings : Settings} {f : Fetcher σ} {l l' : EventLoop σ}

/-- The transform that a caller was told is kept. -/
def ToldKept (l : EventLoop σ) : Prop :=
  ∀ (i : Nat) (c : Caller) d t, l.callers[i]? = some c → c.stage = .told d (.ok t) →
    l.session.cache.transform = some t

/-- What holds of a session that is never reset. -/
structure Steady (l : EventLoop σ) : Prop where
  callers_share : ∀ c ∈ l.callers, c.Shares
  uncancelled : ∀ b ∈ l.builds, b.cancelled = false
  current_lt : ∀ b, l.current = some b → b < l.builds.length
  pending_current : ∀ b, l.Pending b → l.current = some b
  pending_cold : ∀ b, l.Pending b → l.session.cache.transform = none
  pending_turn : ∀ b, l.Pending b → .build b ∈ l.queue
  outcome_kept : ∀ b t, l.outcomeOf? b = some (.ok t) → l.session.cache.transform = some t
  told_kept : ToldKept l

namespace ToldKept

/-- A caller that changes is not told a transform, or it is the one that is kept. -/
theorem modify (h : ToldKept l) {i : Nat} {g : Caller → Caller}
    (hg : ∀ c d t, (g c).stage = .told d (.ok t) →
      c.stage = .told d (.ok t) ∨ l.session.cache.transform = some t) :
    ToldKept { l with callers := l.callers.modify i g } := by
  intro j c d t hc hs
  simp only [List.getElem?_modify] at hc
  obtain ⟨c', hc', rfl⟩ := Option.map_eq_some_iff.mp hc
  split at hs
  · rcases hg c' d t hs with hold | hkept
    · exact h j c' d t hc' hold
    · exact hkept
  · exact h j c' d t hc' hs

end ToldKept

namespace Steady

/-! ## Changes that the session does not notice -/

/-- Only callers change, and turns that are no build's. -/
theorem congr (h : Steady l) (hshares : ∀ c ∈ l'.callers, c.Shares)
    (hbuilds : l'.builds = l.builds) (hcurrent : l'.current = l.current)
    (hcache : l'.session.cache = l.session.cache)
    (hqueue : ∀ b, l.Pending b → .build b ∈ l'.queue) (htold : ToldKept l') : Steady l' where
  callers_share := hshares
  uncancelled := by rw [hbuilds]; exact h.uncancelled
  current_lt := by rw [hbuilds, hcurrent]; exact h.current_lt
  pending_current := by
    simp only [Pending, hbuilds, hcurrent]
    exact h.pending_current
  pending_cold := by
    simp only [Pending, hbuilds, hcache]
    exact h.pending_cold
  pending_turn := by
    simp only [Pending, hbuilds]
    exact hqueue
  outcome_kept := by
    simp only [outcomeOf?, hbuilds, hcache]
    exact h.outcome_kept
  told_kept := htold

theorem setCaller (h : Steady l) (i : Nat) {g : Caller → Caller}
    (hshares : ∀ c, c.Shares → (g c).Shares)
    (hg : ∀ c d t, (g c).stage = .told d (.ok t) → c.stage = .told d (.ok t)) :
    Steady { l with callers := l.callers.modify i g } :=
  h.congr (InOrder.shares_modify h.callers_share hshares) rfl rfl rfl h.pending_turn
    (h.told_kept.modify fun c d t hs => .inl (hg c d t hs))

theorem endCaller (h : Steady l) (i : Nat) (r : Except Failure Reply) :
    Steady (l.endCaller i r) :=
  h.setCaller i (fun _ hc => ⟨hc.1, by simp⟩) (by simp)

theorem tell (h : Steady l) (i : Nat) (d : Demand) {o : Except Failure Transform}
    (ho : ∀ t, o = .ok t → l.session.cache.transform = some t) : Steady (l.tell i d o) := by
  refine h.congr (InOrder.shares_modify h.callers_share fun _ hc => ⟨hc.1, by simp⟩) rfl rfl rfl
    (fun b hb => List.mem_append_left _ (h.pending_turn b hb)) ?_
  refine h.told_kept.modify fun c d' t hs => .inr ?_
  simp only [CallerStage.told.injEq] at hs
  exact ho t hs.2

theorem newCaller (h : Steady l) {call : Call} (hc : call ≠ .script) :
    Steady { l with callers := l.callers ++ [({ call } : Caller)] } := by
  refine h.congr (fun c hmem => ?_) rfl rfl rfl h.pending_turn ?_
  · rcases List.mem_append.mp hmem with hmem | hmem
    · exact h.callers_share c hmem
    · rw [List.mem_singleton.mp hmem]
      exact ⟨hc, by simp⟩
  · intro i c d t hi hs
    rcases getElem?_concat_cases hi with hold | ⟨-, rfl⟩
    · exact h.told_kept i c d t hold hs
    · simp at hs

theorem start (h : Steady l) {call : Call} (hc : call ≠ .script) : Steady (l.start call) :=
  (h.newCaller hc).congr (h.newCaller hc).callers_share rfl rfl rfl
    (fun b hb => List.mem_append_left _ (h.pending_turn b hb)) (h.newCaller hc).told_kept

theorem cancel (h : Steady l) (i : Nat) : Steady (l.cancel i) := by
  unfold EventLoop.cancel
  split
  · exact h
  · exact h
  · exact h.tell i _ (by simp)
  · exact h.setCaller i (fun _ hc => hc) fun _ _ _ hs => hs

/-- The head of the queue leaves it, unless it is the turn of a build that has not ended. -/
theorem pop (h : Steady l) {t : Turn} {rest : List Turn} (hq : l.queue = t :: rest)
    (ht : ∀ b, t = .build b → ¬ l.Pending b) : Steady { l with queue := rest } := by
  refine h.congr h.callers_share rfl rfl rfl (fun b hb => ?_) h.told_kept
  have hmem := h.pending_turn b hb
  rw [hq] at hmem
  exact List.mem_of_ne_of_mem (fun heq => ht b heq.symm hb) hmem

/-! ## A caller's turn -/

/-- Where no outcome is available, nothing has been told that is good. -/
theorem cold_of_unavailable (hnone : l.available? = none) : l.session.cache.transform = none := by
  unfold available? at hnone
  split at hnone
  · simp at hnone
  · next hcold => exact hcold

/-- The caller that waits for a build that it starts or joins. -/
theorem waitForBuild (h : Steady l) (i : Nat) (d : Demand) (hnone : l.available? = none) :
    Steady (l.waitForBuild i d) := by
  have hcold := cold_of_unavailable hnone
  have hkept : (l.waitForBuild i d).session.cache = l.session.cache := by
    rw [waitForBuild_session]
  obtain ⟨n, hcallers⟩ := waitForBuild_callers l i d
  -- while a build has not ended it is current, so a new one is the only one that has not
  have hpending : ∀ b, (l.waitForBuild i d).Pending b →
      b = l.current.getD l.builds.length ∧ .build b ∈ (l.waitForBuild i d).queue := by
    intro b hb
    rcases pending_waitForBuild.mp hb with hold | ⟨hcur, rfl⟩
    · have hcur := h.pending_current b hold
      rw [hcur, waitForBuild_current hcur]
      exact ⟨rfl, h.pending_turn b hold⟩
    · rw [hcur, waitForBuild_fresh hcur]
      exact ⟨rfl, List.mem_append_right _ (List.mem_singleton_self _)⟩
  refine ⟨?_, ?_, ?_, ?_, ?_, ?_, ?_, ?_⟩
  · rw [hcallers]
    exact InOrder.shares_modify h.callers_share fun _ hc => ⟨hc.1, by simp⟩
  · intro x hx
    obtain ⟨b, hb⟩ := List.mem_iff_getElem?.mp hx
    rcases waitForBuild_builds hb with ⟨x', hx', -, hc⟩ | ⟨-, -, rfl⟩
    · rw [← hc]
      exact h.uncancelled x' (List.mem_of_getElem? hx')
    · rfl
  · intro b hb
    rw [waitForBuild_makesCurrent, Option.some.injEq] at hb
    rcases hcur : l.current with _ | m
    · rw [waitForBuild_fresh hcur]
      simp [← hb, hcur, EventLoop.setCaller]
    · rw [waitForBuild_current hcur]
      simpa [← hb, hcur, EventLoop.setCaller] using h.current_lt m hcur
  · intro b hb
    rw [waitForBuild_makesCurrent, (hpending b hb).1]
  · exact fun _ _ => by rw [hkept, hcold]
  · exact fun b hb => (hpending b hb).2
  · intro b t ho
    obtain ⟨x, hx, hxo⟩ := Option.bind_eq_some_iff.mp ho
    rw [hkept]
    rcases waitForBuild_builds hx with ⟨x', hx', ho', -⟩ | ⟨-, -, rfl⟩
    · exact h.outcome_kept b t (Option.bind_eq_some_iff.mpr ⟨x', hx', ho'.trans hxo⟩)
    · simp [SharedBuild.outcome?] at hxo
  · have htold := h.told_kept.modify (i := i) (g := fun c => { c with stage := .waiting n d })
      (by simp)
    intro j c d' t hc hs
    rw [hcallers] at hc
    rw [hkept]
    exact htold j c d' t hc hs

theorem callerTurn (h : Steady l) (i : Nat) : Steady (l.callerTurn settings f i) := by
  refine callerTurn_rule f h.callers_share ?_ ?_ ?_
  · exact fun _ => h
  · exact fun _ r _ => h.endCaller i r
  · exact fun _ d _ _ _ hnone => h.waitForBuild i d hnone

/-! ## A build's turn -/

/-- While one build has not ended, every other one has ended, and none of them well. -/
theorem others_ended (h : Steady l) {i j : Nat} {x : SharedBuild} (hi : l.Pending i) (hji : j ≠ i)
    (hx : l.builds[j]? = some x) : x.outcome? ≠ none ∧ ∀ o, x.outcome? ≠ some (.ok o) := by
  constructor
  · intro hxo
    have hj := h.pending_current j ⟨x, hx, hxo⟩
    rw [h.pending_current i hi, Option.some.injEq] at hj
    exact hji hj.symm
  · intro o hxo
    have hkept := h.outcome_kept j o (Option.bind_eq_some_iff.mpr ⟨x, hx, hxo⟩)
    simp [h.pending_cold i hi] at hkept

/-- A build moves on: it has a turn again, or it has ended and what it ended with is kept. -/
theorem moveBuild (h : Steady l) {i : Nat} {rest : List Turn} {b : SharedBuild}
    (hq : l.queue = .build i :: rest) (hb : l.builds[i]? = some b) (ho : b.outcome? = none)
    {stage : BuildStage} {t : Turn} (s : Session σ) (events : List Event)
    (hgoes : ({ b with stage } : SharedBuild).outcome? = none →
      t = .build i ∧ s.cache.transform = none)
    (hends : ∀ o, ({ b with stage } : SharedBuild).outcome? = some (.ok o) →
      s.cache.transform = some o) :
    Steady (({ l with session := s, events, queue := rest } : EventLoop σ).setBuild i stage
      |>.enqueue t) := by
  have hpending : l.Pending i := ⟨b, hb, ho⟩
  have hcurrent := h.pending_current i hpending
  have hcold := h.pending_cold i hpending
  have hcases : ∀ (j : Nat) (x : SharedBuild),
      (l.builds.modify i fun b => { b with stage })[j]? = some x →
      (j = i ∧ x = { b with stage }) ∨ (j ≠ i ∧ l.builds[j]? = some x) :=
    fun j x hx => InOrder.setStage_cases hb hx
  refine ⟨h.callers_share, ?_, ?_, ?_, ?_, ?_, ?_, ?_⟩
  · intro x hx
    obtain ⟨j, hj⟩ := List.mem_iff_getElem?.mp hx
    rcases hcases j x hj with ⟨-, rfl⟩ | ⟨-, hx⟩
    · exact h.uncancelled b (List.mem_of_getElem? hb)
    · exact h.uncancelled x (List.mem_of_getElem? hx)
  · intro j hj
    simpa [enqueue, setBuild] using h.current_lt j hj
  · rintro j ⟨x, hx, hxo⟩
    rcases hcases j x hx with ⟨rfl, -⟩ | ⟨hji, hx⟩
    · exact hcurrent
    · exact absurd hxo (h.others_ended hpending hji hx).1
  · rintro j ⟨x, hx, hxo⟩
    rcases hcases j x hx with ⟨-, rfl⟩ | ⟨hji, hx⟩
    · exact (hgoes hxo).2
    · exact absurd hxo (h.others_ended hpending hji hx).1
  · rintro j ⟨x, hx, hxo⟩
    rcases hcases j x hx with ⟨rfl, rfl⟩ | ⟨hji, hx⟩
    · rw [(hgoes hxo).1]
      exact List.mem_append_right _ (List.mem_singleton_self _)
    · exact absurd hxo (h.others_ended hpending hji hx).1
  · intro j o ho'
    obtain ⟨x, hx, hxo⟩ := Option.bind_eq_some_iff.mp ho'
    rcases hcases j x hx with ⟨-, rfl⟩ | ⟨hji, hx⟩
    · exact hends o hxo
    · exact absurd hxo ((h.others_ended hpending hji hx).2 o)
  · -- nobody has been told a transform yet
    intro j c d o hc hs
    have hkept := h.told_kept j c d o hc hs
    simp [hcold] at hkept

theorem buildTurn (h : Steady l) {i : Nat} {rest : List Turn} (hq : l.queue = .build i :: rest) :
    Steady (({ l with queue := rest } : EventLoop σ).buildTurn settings f i) := by
  refine buildTurn_rule (fun hnot => ?_) fun b l' hb ho hturn => ?_
  · refine h.pop hq fun b hb => ?_
    rw [Turn.build.injEq] at hb
    exact hb ▸ hnot
  have hlive := h.uncancelled b (List.mem_of_getElem? hb)
  have hcold := h.pending_cold i ⟨b, hb, ho⟩
  cases hturn with
  | neverStarts _ hc => simp [hlive] at hc
  | givesUp _ _ _ hc => simp [hlive] at hc
  | asksForPage events _ _ _ =>
    exact h.moveBuild hq hb ho ⟨l.session.cache, _⟩ events (fun _ => ⟨rfl, hcold⟩)
      (by simp [SharedBuild.outcome?])
  | asksForSource _ _ _ events _ _ _ _ _ =>
    exact h.moveBuild hq hb ho ⟨l.session.cache, _⟩ events (fun _ => ⟨rfl, hcold⟩)
      (by simp [SharedBuild.outcome?])
  | succeeds _ build _ events _ _ _ =>
    refine h.moveBuild hq hb ho _ events (by simp [SharedBuild.outcome?]) fun o ho => ?_
    simp only [SharedBuild.outcome?, Option.some.injEq, Except.ok.injEq] at ho
    rw [ho]
  | fails _ _ events _ _ =>
    exact h.moveBuild hq hb ho _ events (by simp [SharedBuild.outcome?])
      (by simp [SharedBuild.outcome?])

/-! ## Settling, and every turn -/

/-- Telling does not touch what is kept. -/
theorem tellWaiter (h : Steady l) (i : Nat) {o : Except Failure Transform}
    (ho : ∀ t, o = .ok t → l.session.cache.transform = some t) (j : Nat) :
    Steady (l.tellWaiter i o j) ∧ (l.tellWaiter i o j).session = l.session := by
  unfold EventLoop.tellWaiter
  split
  · split
    · exact ⟨h.tell j _ ho, rfl⟩
    · exact ⟨h, rfl⟩
  · exact ⟨h, rfl⟩

theorem settleTurn (h : Steady l) (i : Nat) : Steady (l.settleTurn i) := by
  rcases ho : l.outcomeOf? i with _ | o
  · rw [settleTurn_none ho]
    exact h
  obtain ⟨b, hb, hbo⟩ := Option.bind_eq_some_iff.mp ho
  have hkept : ∀ t, o = .ok t → l.session.cache.transform = some t := fun t ht =>
    h.outcome_kept i t (by rw [ho, ht])
  -- the build that is settled has ended, so it is not missed as the current one
  have hdone : Steady { l with current := if l.current = some i then none else l.current } := by
    refine { h with current_lt := ?_, pending_current := ?_ }
    · intro j hj
      dsimp only at hj
      split at hj
      · simp at hj
      · exact h.current_lt j hj
    · intro j hj
      have hne : ¬ j = i := by
        rintro rfl
        obtain ⟨x, hx, hxo⟩ := hj
        rw [hb, Option.some.injEq] at hx
        rw [← hx, hbo] at hxo
        simp at hxo
      simp [h.pending_current j hj, hne]
  rw [settleTurn_eq hb hbo]
  refine (List.foldlRecOn b.waiters (EventLoop.tellWaiter i o)
    (motive := fun l' => Steady l' ∧ l'.session = l.session) ⟨hdone, rfl⟩ ?_).1
  rintro l' ⟨h', hsession⟩ j -
  have hone := h'.tellWaiter i (by rw [hsession]; exact hkept) j
  exact ⟨hone.1, hone.2.trans hsession⟩

/-- **Every turn** leaves a session steady. -/
theorem takeTurn (h : Steady l) : Steady (l.takeTurn settings f) := by
  unfold EventLoop.takeTurn
  rcases hq : l.queue with _ | ⟨t, rest⟩
  · exact h
  · cases t with
    | caller i => exact (h.pop hq (by simp)).callerTurn i
    | build i => exact h.buildTurn hq
    | settle i => exact (h.pop hq (by simp)).settleTurn i

end Steady

/-! ## A steady session comes to its end -/

theorem Steady.turns_work (h : Steady l) (n : Nat) :
    work settings (run settings f (List.replicate n .turn) l) ≤ work settings l := by
  induction n generalizing l with
  | zero => exact Nat.le_refl _
  | succ n ih =>
    rw [List.replicate_succ, run_cons]
    have hstep : work settings (l.takeTurn settings f) ≤ work settings l := by
      by_cases hq : l.queue = []
      · simp only [EventLoop.takeTurn, hq]
        exact Nat.le_refl _
      · exact Nat.le_of_lt (takeTurn_work h.callers_share hq)
    exact Nat.le_trans (ih h.takeTurn) hstep

theorem Steady.tick_work (h : Steady l) (hq : l.queue ≠ []) :
    work settings (l.tick settings f) < work settings l := by
  obtain ⟨n, hn⟩ : ∃ n, l.queue.length = n + 1 :=
    Nat.exists_eq_succ_of_ne_zero (by simpa using hq)
  rw [tick_eq_run, hn, List.replicate_succ, run_cons]
  exact Nat.lt_of_le_of_lt (h.takeTurn.turns_work n) (takeTurn_work h.callers_share hq)

theorem tick_of_queue_empty (hq : l.queue = []) : l.tick settings f = l := by
  rw [tick_eq_run, hq]
  rfl

theorem ticks_of_queue_empty (hq : l.queue = []) (n : Nat) : l.ticks settings f n = l := by
  induction n with
  | zero => rfl
  | succ n ih => rw [ticks, tick_of_queue_empty hq, ih]

/-- In the end nobody has a turn. -/
theorem Steady.runs_empty (settings : Settings) (f : Fetcher σ) (h : Steady l) :
    ∃ N, ∀ n, N ≤ n → (l.ticks settings f n).queue = [] := by
  induction hw : work settings l using Nat.strongRecOn generalizing l with
  | ind w ih =>
    by_cases hq : l.queue = []
    · exact ⟨0, fun n _ => by rw [ticks_of_queue_empty hq, hq]⟩
    · have hless : work settings (l.tick settings f) < work settings l := h.tick_work hq
      rw [hw] at hless
      obtain ⟨N, hN⟩ := ih _ hless (tick_invariant (fun _ hl => hl.takeTurn) h) rfl
      refine ⟨N + 1, fun n hn => ?_⟩
      obtain ⟨k, rfl⟩ := Nat.exists_eq_add_of_le hn
      rw [show N + 1 + k = (N + k) + 1 by omega]
      exact hN (N + k) (Nat.le_add_right N k)

/-- **In the end every caller has ended.** -/
theorem Steady.all_end (settings : Settings) (f : Fetcher σ) (h : Steady l)
    (hl : Attended none l) :
    ∃ N, ∀ n, N ≤ n → (l.ticks settings f n).allEnded = true := by
  obtain ⟨N, hN⟩ := h.runs_empty settings f
  refine ⟨N, fun n hn => ?_⟩
  have hboth : Steady (l.ticks settings f n) ∧ Attended none (l.ticks settings f n) :=
    ticks_invariant (P := fun l => Steady l ∧ Attended none l)
      (fun l hl => ⟨hl.1.takeTurn, hl.2.takeTurn hl.1.callers_share hl.1.current_lt⟩) n ⟨h, hl⟩
  refine List.all_eq_true.mpr fun c hc => ?_
  obtain ⟨r, hr⟩ := ended_of_queue_empty hboth.1.callers_share hboth.1.pending_turn hboth.2
    (hN n hn) hc
  simp [Caller.outcome?, hr]

/-! ## Builds that somebody waits for -/

/-- For every build that has not ended there is somebody who waits. -/
def Wanted (l : EventLoop σ) : Prop :=
  ∀ b, l.Pending b → ∃ (i : Nat) (c : Caller) (d : Demand),
    l.callers[i]? = some c ∧ c.stage = .waiting b d

theorem Wanted.callerTurn (h : Wanted l) (hshares : ∀ c ∈ l.callers, c.Shares) (i : Nat) :
    Wanted (l.callerTurn settings f i) := by
  rcases hc : l.callers[i]? with _ | c
  · rwa [callerTurn_none hc]
  -- whoever waits is not due, so it is another caller
  have hother : ∀ {j : Nat} {c' : Caller} {b : Nat} {d : Demand}, c.IsDue →
      l.callers[j]? = some c' → c'.stage = .waiting b d → i ≠ j := by
    rintro j c' b d hdue hj hs rfl
    rw [hc, Option.some.injEq] at hj
    subst hj
    rcases hdue with hs' | ⟨d', o, hs'⟩ <;> simp [hs] at hs'
  have hturn := callerTurn_cases settings f hc (hshares c (List.mem_of_getElem? hc))
  generalize l.callerTurn settings f i = l' at hturn
  cases hturn with
  | rests _ => exact h
  | leaves r hdue =>
    intro b hb
    obtain ⟨j, c', d, hj, hs⟩ := h b hb
    refine ⟨j, c', d, ?_, hs⟩
    rw [endCaller, setCaller, List.getElem?_modify_ne _ _ (hother hdue hj hs)]
    exact hj
  | waits d hd _ _ =>
    have hdue : c.IsDue := by
      rcases hd with ⟨hs, -⟩ | ⟨d', t, hs, -⟩
      · exact .inl hs
      · exact .inr ⟨d', _, hs⟩
    intro b hb
    have hjoined : l.Pending b ∨
        ∃ c', (l.waitForBuild i d).callers[i]? = some c' ∧ c'.stage = .waiting b d := by
      rcases pending_waitForBuild.mp hb with hold | ⟨hcur, rfl⟩
      · exact .inl hold
      · rw [waitForBuild_fresh hcur]
        exact .inr ⟨{ c with stage := .waiting l.builds.length d }, by simp [setCaller, hc], rfl⟩
    rcases hjoined with hold | ⟨c', hc', hs⟩
    · obtain ⟨j, c', d', hj, hs⟩ := h b hold
      obtain ⟨n, hcallers⟩ := waitForBuild_callers l i d
      refine ⟨j, c', d', ?_, hs⟩
      rw [hcallers, List.getElem?_modify_ne _ _ (hother hdue hj hs)]
      exact hj
    · exact ⟨i, c', d, hc', hs⟩

theorem Wanted.takeTurn (h : Wanted l) (hshares : ∀ c ∈ l.callers, c.Shares) :
    Wanted (l.takeTurn settings f) := by
  unfold EventLoop.takeTurn
  rcases hq : l.queue with _ | ⟨t, rest⟩
  · exact h
  cases t with
  | caller i => exact callerTurn (l := { l with queue := rest }) h hshares i
  | build i =>
    refine buildTurn_rule (P := Wanted) (l := { l with queue := rest }) (fun _ => h)
      fun b l' hb ho hturn => ?_
    obtain ⟨stage, t, hcallers, hbuilds, -⟩ := hturn.frame
    rintro j ⟨x, hx, hxo⟩
    rw [hbuilds] at hx
    rw [hcallers]
    rcases InOrder.setStage_cases hb hx with ⟨rfl, -⟩ | ⟨-, hx⟩
    · exact h j ⟨b, hb, ho⟩
    · exact h j ⟨x, hx, hxo⟩
  | settle i =>
    show Wanted (({ l with queue := rest } : EventLoop σ).settleTurn i)
    rcases ho : l.outcomeOf? i with _ | o
    · rw [settleTurn_none (l := { l with queue := rest }) ho]
      exact h
    obtain ⟨b, hb, hbo⟩ := Option.bind_eq_some_iff.mp ho
    rw [settleTurn_eq (l := { l with queue := rest }) hb hbo]
    obtain ⟨-, hbuilds, -⟩ := tellAll_frame i o b.waiters
      { l with queue := rest, current := if l.current = some i then none else l.current }
    rintro j ⟨x, hx, hxo⟩
    rw [hbuilds] at hx
    obtain ⟨k, c, d, hc, hs⟩ := h j ⟨x, hx, hxo⟩
    -- the build that is settled has ended, so nobody is told who waits for this one
    have hne : j ≠ i := by
      rintro rfl
      rw [show l.builds[j]? = some x from hx, Option.some.injEq] at hb
      rw [hb, hbo] at hxo
      simp at hxo
    refine ⟨k, c, d, ?_, hs⟩
    rw [tellAll_callers]
    show (if k ∈ b.waiters then (l.callers[k]?).map _ else l.callers[k]?) = some c
    rw [hc]
    split
    · rcases Caller.hear_cases i o c with ⟨hsame, -⟩ | ⟨d', hs', -⟩
      · rw [Option.map_some, hsame]
      · rw [hs, CallerStage.waiting.injEq] at hs'
        exact absurd hs'.1 hne
    · rfl

/-! ## When all callers have ended -/

theorem ended_of_allEnded (h : l.allEnded = true) {c : Caller} (hc : c ∈ l.callers) :
    ∃ r, c.stage = .ended r := by
  obtain ⟨r, hr⟩ := Option.isSome_iff_exists.mp (List.all_eq_true.mp h c hc)
  unfold Caller.outcome? at hr
  split at hr
  · next r' hs => exact ⟨r', hs⟩
  · simp at hr

/-- Every caller has ended. -/
def CallersEnded (l : EventLoop σ) : Prop := AllCallers (fun _ c => ∃ r, c.stage = .ended r) l

/-- A caller that has ended stays so. -/
theorem callerWise_ended : CallerWise settings fun _ c => ∃ r, c.stage = .ended r where
  marked _ _ h := h
  ended _ _ r _ := ⟨r, rfl⟩
  waiting _ c b d hd _ := by
    rintro ⟨r, hr⟩
    rcases hd with ⟨hs, -⟩ | ⟨_, _, hs, -⟩ <;> simp [hs] at hr
  told _ c b d o hs := by
    rintro ⟨r, hr⟩
    simp [hs] at hr
  reading _ c r hs _ := by
    rintro ⟨r', hr⟩
    rcases hs with ⟨hs, -⟩ | ⟨_, hs⟩ <;> simp [hs] at hr

/-- A turn is lost on a caller that has ended. -/
theorem CallersEnded.callerTurn (h : CallersEnded l) (i : Nat) :
    l.callerTurn settings f i = l := by
  rcases hc : l.callers[i]? with _ | c
  · exact callerTurn_none hc
  · obtain ⟨r, hr⟩ := h i c hc
    exact callerTurn_ended hc hr

theorem CallersEnded.turn (h : CallersEnded l) (t : Turn) :
    CallersEnded (l.turn settings f t) := by
  have hstay : CallerWise settings fun _ c => ∃ r, c.stage = .ended r := callerWise_ended
  cases t with
  | caller i =>
    rw [EventLoop.turn, h.callerTurn i]
    exact h
  | build i => exact AllCallers.buildTurn h i
  | settle i => exact AllCallers.settleTurn hstay h i

/-- Whether nothing is left to do: everybody has ended, and so has every build. -/
def Finished (l : EventLoop σ) : Prop :=
  (∀ c ∈ l.callers, ∃ r, c.stage = .ended r) ∧ ∀ b, ¬ l.Pending b

theorem Wanted.finished (h : Wanted l) (hended : l.allEnded = true) : Finished l := by
  refine ⟨fun c hc => ended_of_allEnded hended hc, fun b hb => ?_⟩
  obtain ⟨i, c, d, hc, hs⟩ := h b hb
  obtain ⟨r, hr⟩ := ended_of_allEnded hended (List.mem_of_getElem? hc)
  simp [hs] at hr

/-- When nothing is left to do, turns leave the session as it is. -/
theorem Finished.takeTurn (h : Finished l) :
    Finished (l.takeTurn settings f) ∧ (l.takeTurn settings f).session = l.session := by
  unfold EventLoop.takeTurn
  rcases hq : l.queue with _ | ⟨t, rest⟩
  · exact ⟨h, rfl⟩
  have hended : CallersEnded { l with queue := rest } :=
    fun j c hc => h.1 c (List.mem_of_getElem? hc)
  cases t with
  | caller i =>
    have hsame : ({ l with queue := rest } : EventLoop σ).callerTurn settings f i =
        { l with queue := rest } := hended.callerTurn i
    show Finished (({ l with queue := rest } : EventLoop σ).callerTurn settings f i) ∧
      (({ l with queue := rest } : EventLoop σ).callerTurn settings f i).session = l.session
    rw [hsame]
    exact ⟨h, rfl⟩
  | build i =>
    exact buildTurn_rule (P := fun l' => Finished l' ∧ l'.session = l.session)
      (l := { l with queue := rest }) (fun _ => ⟨h, rfl⟩)
      fun b _ hb ho _ => absurd ⟨b, hb, ho⟩ (h.2 i)
  | settle i =>
    refine ⟨⟨?_, ?_⟩, (settleTurn_quiet i _).2⟩
    · have hall : CallersEnded (({ l with queue := rest } : EventLoop σ).turn settings f
        (.settle i)) := hended.turn (.settle i)
      intro c hc
      obtain ⟨j, hj⟩ := List.mem_iff_getElem?.mp hc
      exact hall j c hj
    · rintro b ⟨x, hx, ho⟩
      have hx' : (({ l with queue := rest } : EventLoop σ).settleTurn i).builds[b]? = some x := hx
      rw [(settleTurn_quiet i _).1] at hx'
      exact h.2 b ⟨x, hx', ho⟩

/-- **When nothing is left to do**, ticks leave the session as it is. -/
theorem Finished.ticks (h : Finished l) (n : Nat) :
    (l.ticks settings f n).session = l.session :=
  (ticks_invariant (P := fun l' => Finished l' ∧ l'.session = l.session)
    (fun _ hl' => ⟨hl'.1.takeTurn.1, hl'.1.takeTurn.2.trans hl'.2⟩) n ⟨h, rfl⟩).2

end StreamResolver.Cipher.EventLoop
