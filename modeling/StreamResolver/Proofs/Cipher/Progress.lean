/-
  A loop that is left alone comes to rest.

  The work of a loop is a number that every turn lowers (`takeTurn_work`): the turns in the queue,
  the turns that builds still have, and for each caller enough to pay for the builds that it may
  still start.  A caller pays for a build when it starts one, and a demand is needed once less
  after each transform that comes in.

  So if nothing but turns happens, the queue runs empty (`queue_runs_empty`).  Then every caller has
  ended: one that is due or that waits is attended to (`Attended`), and would have something in the
  queue.
-/
import Mathlib.Algebra.GroupWithZero.Nat
import StreamResolver.Proofs.Cipher.Deciphering
import StreamResolver.Proofs.Cipher.Waiting

namespace StreamResolver.Cipher

/-- The work that a caller can still cause: five turns each time that it needs the transform, of
    which one is its own, one the settling and three those of a build that it starts. -/
def Caller.work (settings : Settings) (c : Caller) : Nat :=
  match c.stage with
  | .unstarted =>
    match c.call.demand? settings with
    | some d => 5 * d.size settings.param.toList + 1
    | none => 0
  | .waiting _ d => 5 * d.size settings.param.toList - 3
  | .told d _ => 5 * d.size settings.param.toList - 4
  | _ => 0

theorem Caller.Needs.work_eq {settings : Settings} {c : Caller} {d : Demand}
    (h : c.Needs settings d) : c.work settings = 5 * d.size settings.param.toList + 1 := by
  rcases h with ⟨hs, hd⟩ | ⟨d', t, hs, hd⟩
  · simp [Caller.work, hs, hd]
  · have hsize := Demand.advance_size hd
    simp only [Caller.work, hs]
    omega

/-- Replacing one element changes the sum by the difference. -/
theorem sum_map_modify {α : Type} (w : α → Nat) (g : α → α) {xs : List α} {i : Nat} {x : α}
    (h : xs[i]? = some x) :
    ((xs.modify i g).map w).sum + w x = (xs.map w).sum + w (g x) := by
  induction xs generalizing i with
  | nil => simp at h
  | cons y ys ih =>
    cases i with
    | zero =>
      simp only [List.getElem?_cons_zero, Option.some.injEq] at h
      subst h
      simp only [List.modify_zero_cons, List.map_cons, List.sum_cons]
      omega
    | succ i =>
      have hi := ih (by simpa using h)
      simp only [List.modify_succ_cons, List.map_cons, List.sum_cons]
      omega

namespace EventLoop

variable {σ : Type} {settings : Settings} {f : Fetcher σ}

/-- The work that is left if nothing but turns happens. -/
def work (settings : Settings) (l : EventLoop σ) : Nat :=
  l.queue.length + (l.callers.map (·.work settings)).sum + (l.builds.map (·.stage.turnsLeft)).sum

theorem setCaller_work (settings : Settings) {l : EventLoop σ} {i : Nat} {c : Caller}
    (hc : l.callers[i]? = some c)
    (stage : CallerStage) :
    work settings (l.setCaller i stage) + c.work settings =
      work settings l + ({ c with stage } : Caller).work settings := by
  have hsum := sum_map_modify (·.work settings) (fun c => { c with stage }) hc
  simp only [work, setCaller]
  omega

/-! ## A caller's turn -/

theorem waitForBuild_work {l : EventLoop σ} {i : Nat} {c : Caller} {d : Demand}
    (hc : l.callers[i]? = some c) (hd : c.Needs settings d) :
    work settings (l.waitForBuild i d) ≤ work settings l := by
  have hpos := d.size_pos settings.param.toList
  have hneeds := hd.work_eq
  rcases hcur : l.current with _ | n
  · -- the work of the new build is paid for by the caller
    rw [waitForBuild_fresh hcur]
    have hset := setCaller_work settings (l := { l with
      builds := l.builds ++ [({ waiters := [i] } : SharedBuild)]
      current := some l.builds.length
      queue := l.queue ++ [Turn.build l.builds.length] }) hc (.waiting l.builds.length d)
    have hwaits : ({ c with stage := .waiting l.builds.length d } : Caller).work settings =
        5 * d.size settings.param.toList - 3 := rfl
    simp only [work, List.length_append, List.map_append, List.sum_append, List.map_cons,
      List.map_nil, List.sum_cons, List.sum_nil, List.length_cons, List.length_nil,
      BuildStage.turnsLeft] at hset ⊢
    omega
  · rw [waitForBuild_current hcur]
    have hset := setCaller_work settings (l := { l with
      builds := l.builds.modify n fun build =>
        { build with waiters := build.waiters ++ [i] } }) hc (.waiting n d)
    have hwaits : ({ c with stage := .waiting n d } : Caller).work settings =
        5 * d.size settings.param.toList - 3 := rfl
    have hbuilds : ((l.builds.modify n fun build =>
        { build with waiters := build.waiters ++ [i] }).map (·.stage.turnsLeft)).sum =
        (l.builds.map (·.stage.turnsLeft)).sum := by
      rcases hb : l.builds[n]? with _ | b
      · rw [List.modify_eq_self (by simpa using hb)]
      · have hsum := sum_map_modify (fun b : SharedBuild => b.stage.turnsLeft)
          (fun build => { build with waiters := build.waiters ++ [i] }) hb
        dsimp only at hsum
        omega
    simp only [work] at hset ⊢
    omega

theorem callerTurn_work {l : EventLoop σ} (h : ∀ c ∈ l.callers, c.Shares) (i : Nat) :
    work settings (l.callerTurn settings f i) ≤ work settings l := by
  refine callerTurn_rule (P := fun l' => work settings l' ≤ work settings l) f h ?_ ?_ ?_
  · exact fun _ => Nat.le_refl _
  · intro c r hc
    have hset := setCaller_work settings hc (.ended r)
    have hended : ({ c with stage := .ended r } : Caller).work settings = 0 := rfl
    rw [endCaller]
    omega
  · exact fun c d hc hd _ _ => waitForBuild_work hc hd

/-! ## The other turns -/

theorem BuildTurn.work_le {i : Nat} {l l' : EventLoop σ} {b : SharedBuild}
    (h : BuildTurn settings f i l b l') (hb : l.builds[i]? = some b) :
    work settings l' ≤ work settings l := by
  obtain ⟨stage, t, hcallers, hbuilds, hqueue, -, hless⟩ := h.frame
  have hsum := sum_map_modify (fun b : SharedBuild => b.stage.turnsLeft)
    (fun b => { b with stage }) hb
  simp only [work, hcallers, hbuilds, hqueue, List.length_append, List.length_singleton]
  dsimp only at hsum
  omega

/-- Telling a caller puts a turn in the queue and takes as much from the caller's own work. -/
theorem tellWaiter_work (b : Nat) (o : Except Failure Transform) (l : EventLoop σ) (i : Nat) :
    work settings (tellWaiter b o l i) ≤ work settings l := by
  rcases hc : l.callers[i]? with _ | c
  · simp [tellWaiter, callerStage?, hc]
  have hstage : l.callerStage? i = some c.stage := by rw [callerStage?, hc, Option.map_some]
  unfold tellWaiter
  rw [hstage]
  rcases hs : c.stage with _ | r | ⟨b', d⟩ | ⟨d, o'⟩ | r <;> simp only [Nat.le_refl]
  split
  · have hpos := d.size_pos settings.param.toList
    have hset := setCaller_work settings hc (.told d o)
    have hwaits : c.work settings = 5 * d.size settings.param.toList - 3 := by
      simp [Caller.work, hs]
    have htold : ({ c with stage := .told d o } : Caller).work settings =
        5 * d.size settings.param.toList - 4 := rfl
    simp only [work, tell, enqueue, List.length_append, List.length_singleton] at hset ⊢
    omega
  · exact Nat.le_refl _

theorem settleTurn_work (i : Nat) (l : EventLoop σ) :
    work settings (l.settleTurn i) ≤ work settings l := by
  rcases ho : l.outcomeOf? i with _ | o
  · exact Nat.le_of_eq (congrArg _ (settleTurn_none ho))
  · obtain ⟨b, hb, hbo⟩ := Option.bind_eq_some_iff.mp ho
    rw [settleTurn_eq hb hbo]
    exact List.foldlRecOn b.waiters (tellWaiter i o)
      (motive := fun l' => work settings l' ≤ work settings l) (Nat.le_refl _)
      fun l' h j _ => Nat.le_trans (tellWaiter_work i o l' j) h

/-- **Every turn** lowers the work. -/
theorem takeTurn_work {l : EventLoop σ} (hshares : ∀ c ∈ l.callers, c.Shares) (hq : l.queue ≠ []) :
    work settings (l.takeTurn settings f) < work settings l := by
  unfold takeTurn
  rcases hqueue : l.queue with _ | ⟨t, rest⟩
  · exact absurd hqueue hq
  have hpop : work settings ({ l with queue := rest } : EventLoop σ) < work settings l := by
    simp only [work, hqueue, List.length_cons]
    omega
  refine Nat.lt_of_le_of_lt ?_ hpop
  cases t with
  | caller i => exact callerTurn_work (l := { l with queue := rest }) hshares i
  | build i =>
    exact buildTurn_rule (P := fun l' => work settings l' ≤ work settings { l with queue := rest })
      (fun _ => Nat.le_refl _) fun b l' hb _ hturn => hturn.work_le hb
  | settle i => exact settleTurn_work i _

/-- A loop that is left alone comes to a state in which nobody has a turn. -/
theorem queue_runs_empty {l : EventLoop σ} (h : InOrder settings l) :
    ∃ n, (run settings f (List.replicate n .turn) l).queue = [] := by
  induction hw : work settings l using Nat.strongRecOn generalizing l with
  | ind w ih =>
    by_cases hq : l.queue = []
    · exact ⟨0, hq⟩
    · have hless : work settings (l.takeTurn settings f) < work settings l :=
        takeTurn_work h.callers_share hq
      rw [hw] at hless
      obtain ⟨n, hn⟩ := ih _ hless (h.takeTurn (f := f)) rfl
      exact ⟨n + 1, hn⟩

/-- In a state in which nobody has a turn, and no build is left without one, every caller has
    ended. -/
theorem ended_of_queue_empty {l : EventLoop σ} (hshares : ∀ c ∈ l.callers, c.Shares)
    (hturns : ∀ b, l.Pending b → .build b ∈ l.queue) (hl : Attended none l)
    (hq : l.queue = []) {c : Caller} (hc : c ∈ l.callers) : ∃ r, c.stage = .ended r := by
  obtain ⟨i, hi⟩ := List.mem_iff_getElem?.mp hc
  have hdue : ¬ c.IsDue := fun hdue => by
    have hin := hl.due i c (by simp) hi hdue
    simp [hq] at hin
  rcases hs : c.stage with _ | r | ⟨b, d⟩ | ⟨d, o⟩ | r
  · exact absurd (.inl hs) hdue
  · exact absurd hs ((hshares c hc).2 r)
  · obtain ⟨-, sb, hsb, -, hsettle⟩ := hl.waiting i c b d hi hs
    rcases ho : sb.outcome? with _ | o
    · have hin := hturns b ⟨sb, hsb, ho⟩
      simp [hq] at hin
    · have hin := hsettle (by simp [ho])
      simp [hq] at hin
  · exact absurd (.inr ⟨d, o, hs⟩) hdue
  · exact ⟨r, rfl⟩

/-- **Left alone, a loop ends all its callers.** -/
theorem all_callers_end {l : EventLoop σ} (h : InOrder settings l) (hl : Attended none l) :
    ∃ n, ∀ c ∈ (run settings f (List.replicate n .turn) l).callers, ∃ r, c.stage = .ended r := by
  obtain ⟨n, hn⟩ := queue_runs_empty (f := f) h
  have hturns : ∀ d ∈ List.replicate n (Deed.turn : Deed σ), d.Shares := by
    intro d hd
    rw [List.eq_of_mem_replicate hd]
    trivial
  have horder := run_inOrder (f := f) hturns h
  exact ⟨n, fun c hc => ended_of_queue_empty horder.callers_share
    (fun b hb => horder.mem_queue hb) (run_attended hturns h hl) hn hc⟩

end EventLoop

end StreamResolver.Cipher
