/-
  A caller that is cancelled harms nobody else.

  Callers line up at a session that builds nothing, and after some ticks the first of them is
  cancelled.  `Unharmed` compares the run that follows with the one in which it is not cancelled:

    * the other callers are equally far after every tick, so they get the same outcomes;
    * if one of the others needs the transform, the sessions are the same after every tick, and so
      they are when all have ended;
    * no build is cancelled.

  The crux is that both runs show what happens when the others come alone (`othersOnly`).  There is
  one difficulty: a first caller that needs the transform begins the build before the others are
  asked.  Until the first of those needs the transform as well, its loop is ahead by a build
  (`Ahead`); from then on the build is theirs.
-/
import StreamResolver.Proofs.Cipher.Callers
import StreamResolver.Proofs.Cipher.Steady
import StreamResolver.Proofs.Cipher.View

namespace StreamResolver.Cipher.EventLoop

variable {σ : Type} {settings : Settings} {f : Fetcher σ} {l v : EventLoop σ}

/-- A session to which nobody has come. -/
def ofSession (s : Session σ) : EventLoop σ := { session := s }

/-- All callers but the first are seen, and all builds. -/
def othersOnly : View where
  caller?
    | 0 => none
    | i + 1 => some i
  past := 0
  caller_inj {i i' j} hi hi' := by
    cases i <;> cases i' <;> simp_all

@[simp] theorem othersOnly_succ (i : Nat) : othersOnly.caller? (i + 1) = some i := rfl

/-! ## Callers that line up -/

theorem startAll_invariant {P : EventLoop σ → Prop} {calls : List Call}
    (hP : ∀ l call, call ∈ calls → P l → P (l.start call)) (h : P l) : P (l.startAll calls) := by
  induction calls generalizing l with
  | nil => exact h
  | cons call calls ih =>
    exact ih (fun l c hc => hP l c (List.mem_cons_of_mem call hc))
      (hP l call List.mem_cons_self h)

theorem ofSession_startAll (s : Session σ) (calls : List Call) :
    (ofSession s).startAll calls = { ofSession s with
      callers := calls.map fun call => ({ call } : Caller)
      queue := (List.range' 0 calls.length).map .caller } := by
  rw [startAll_eq]
  rfl

theorem callers_startAll (s : Session σ) (calls : List Call) (i : Nat) :
    ((ofSession s).startAll calls).callers[i]? =
      (calls[i]?).map fun call => ({ call } : Caller) := by
  rw [ofSession_startAll, List.getElem?_map]

/-- The turns of the others stand behind that of the first. -/
theorem queue_startAll_cons (s : Session σ) (first : Call) (others : List Call) :
    ((ofSession s).startAll (first :: others)).queue =
      .caller 0 :: (List.range' 0 others.length).map fun i => Turn.caller (i + 1) := by
  have hnumbers : List.range' 1 others.length = (List.range' 0 others.length).map (· + 1) := by
    simp [List.range'_eq_map_range, Nat.add_comm]
  rw [ofSession_startAll]
  simp [List.range'_succ, hnumbers]

theorem steady_ofSession (s : Session σ) : Steady (ofSession s) := by
  constructor <;> simp [ofSession, Pending, outcomeOf?, ToldKept]

theorem steady_startAll {calls : List Call} (hcalls : ∀ call ∈ calls, call ≠ .script)
    (s : Session σ) : Steady ((ofSession s).startAll calls) :=
  startAll_invariant (fun _ call hc hl => hl.start (hcalls call hc)) (steady_ofSession s)

theorem attended_startAll (calls : List Call) (s : Session σ) :
    Attended none ((ofSession s).startAll calls) :=
  startAll_invariant (P := Attended none) (fun _ call _ hl => hl.start call)
    ⟨by simp [ofSession], by simp [ofSession]⟩

theorem wanted_startAll (calls : List Call) (s : Session σ) :
    Wanted ((ofSession s).startAll calls) := by
  rintro b ⟨x, hx, -⟩
  rw [ofSession_startAll] at hx
  simp [ofSession] at hx

/-- When all line up, the others are seen as if they came alone. -/
theorem shows_startAll (s : Session σ) (first : Call) (others : List Call) :
    Shows othersOnly ((ofSession s).startAll (first :: others)) ((ofSession s).startAll others) := by
  have hfirst : Shows othersOnly ((ofSession s).start first) (ofSession s) := by
    refine ⟨rfl, rfl, ?_, ?_, ?_, rfl, rfl⟩
    · intro i j hij
      cases i with
      | zero => simp [othersOnly] at hij
      | succ i => simp [start, enqueue, ofSession]
    · intro k
      simp [start, enqueue, ofSession, Nat.add_comm 1 k]
    · simp [start, enqueue, ofSession]
  show Shows othersOnly (((ofSession s).start first).startAll others) _
  generalize (ofSession s).start first = l at hfirst
  generalize ofSession s = v at hfirst
  induction others generalizing l v with
  | nil => exact hfirst
  | cons call others ih => exact ih _ _ (hfirst.start call)

/-! ## A first caller that has begun is idle -/

/-- The first caller has begun, or it is cancelled. -/
def FirstBegun (i : Nat) (c : Caller) : Prop := i = 0 → c.stage = .unstarted → c.cancelled = true

theorem callerWise_firstBegun (settings : Settings) : CallerWise settings FirstBegun where
  marked _ _ _ _ _ := rfl
  ended _ _ _ _ := by simp [FirstBegun]
  waiting _ _ _ _ _ _ _ := by simp [FirstBegun]
  told _ _ _ _ _ _ _ := by simp [FirstBegun]
  reading _ _ _ _ _ _ := by simp [FirstBegun]

/-- What keeps the turns of the first caller idle. -/
def Settled (l : EventLoop σ) : Prop := Steady l ∧ AllCallers FirstBegun l

theorem Settled.takeTurn (h : Settled l) : Settled (l.takeTurn settings f) :=
  ⟨h.1.takeTurn, h.2.takeTurn (callerWise_firstBegun settings)⟩

theorem Settled.idle (h : Settled l) {t : Turn} (ht : othersOnly.turn? t = none) :
    Idle settings l t := by
  cases t with
  | caller i =>
    cases i with
    | succ i => simp [View.turn?] at ht
    | zero =>
      intro c hc
      refine ⟨h.1.callers_share c (List.mem_of_getElem? hc), fun d hd hlive hnone => ?_⟩
      rcases hd with ⟨hs, -⟩ | ⟨d', t, hs, -⟩
      · rw [h.2 0 c hc rfl hs] at hlive
        simp at hlive
      · -- it was told a transform, and that one is kept
        have hcold := Steady.cold_of_unavailable hnone
        rw [h.1.told_kept 0 c d' t hc hs] at hcold
        simp at hcold
  | build b => simp [View.turn?, View.build?, othersOnly] at ht
  | settle b => simp [View.turn?, View.build?, othersOnly] at ht

/-- Once the first caller has begun, the others are seen as if they were alone. -/
theorem Settled.ticks (h : Settled l) (hshows : Shows othersOnly l v) (n : Nat) :
    Shows othersOnly (l.ticks settings f n) (v.ticks settings f n) ∧
      Settled (l.ticks settings f n) :=
  Shows.ticks (fun _ hl => hl.takeTurn) (fun _ _ _ hl _ _ ht => hl.idle ht) n hshows h

theorem settled_cancel (h : Steady l) : Settled (l.cancel 0) := by
  refine ⟨h.cancel 0, fun i c hc hi hs => ?_⟩
  subst hi
  unfold EventLoop.cancel at hc
  rcases hcaller : l.callers[0]? with _ | c'
  · simp [callerStage?, hcaller] at hc
  · rcases hstage : c'.stage with _ | r | ⟨b, d⟩ | ⟨d, o⟩ | r <;>
      simp [callerStage?, hcaller, hstage, EventLoop.tell, enqueue, setCaller] at hc <;>
      simp [← hc, hstage] at hs ⊢

/-! ## A first caller that begins the build -/

/-- The first loop is ahead of the second by a build that the first caller has begun. -/
def Ahead (l v : EventLoop σ) : Prop :=
  ∃ l₀ d, Shows othersOnly l₀ v ∧ l₀.current = none ∧ l₀.available? = none ∧
    l = l₀.waitForBuild 0 d

theorem callerTurn_begins (settings : Settings) (f : Fetcher σ) {i : Nat} {call : Call}
    (hc : l.callers[i]? = some { call }) :
    l.callerTurn settings f i = l.startCall settings f i call := by
  simp [callerTurn, hc]

theorem Ahead.caller (h : Ahead l v) {i : Nat} {call : Call}
    (hc : v.callers[i]? = some { call }) : l.callers[i + 1]? = some { call } := by
  obtain ⟨l₀, d, hshows, -, -, rfl⟩ := h
  obtain ⟨b, hcallers⟩ := waitForBuild_callers l₀ 0 d
  rw [hcallers, List.getElem?_modify_ne _ _ (by omega), hshows.callers (i + 1) i rfl, hc]
  rfl

/-- Another caller that needs no transform ends in both loops, and the first is still ahead. -/
theorem Ahead.ends (h : Ahead l v) (i : Nat) (r : Except Failure Reply) :
    Ahead (l.endCaller (i + 1) r) (v.endCaller i r) := by
  obtain ⟨l₀, d, hshows, hcur, hnone, rfl⟩ := h
  refine ⟨l₀.endCaller (i + 1) r, d, hshows.endCaller rfl r, hcur, hnone, ?_⟩
  rw [waitForBuild_fresh hcur, waitForBuild_fresh (l := l₀.endCaller (i + 1) r) hcur]
  simp only [EventLoop.endCaller, setCaller]
  rw [List.modify_modify_ne _ _ _ (by omega)]

/-- Another caller that needs the transform joins the build, which is now a build of its own. -/
theorem Ahead.joins (h : Ahead l v) (i : Nat) (d : Demand) :
    Shows othersOnly (l.attend settings (i + 1) d) (v.attend settings i d) := by
  obtain ⟨l₀, d₀, hshows, hcur, hnone, rfl⟩ := h
  have hv : v.attend settings i d = v.waitForBuild i d := by
    rw [attend, ← hshows.available?, hnone]
  have hl : (l₀.waitForBuild 0 d₀).available? = none := by
    have hcold := Steady.cold_of_unavailable hnone
    rw [waitForBuild_fresh hcur]
    simp [available?, setCaller, hcold, SharedBuild.outcome?]
  rw [hv, attend, hl]
  -- the first caller is added in front of those who wait
  have hsame : (l₀.waitForBuild 0 d₀).waitForBuild (i + 1) d =
      setCaller 0 (.waiting l₀.builds.length d₀)
        { l₀.waitForBuild (i + 1) d with
          builds := (l₀.waitForBuild (i + 1) d).builds.modify l₀.builds.length fun build =>
            { build with waiters := 0 :: build.waiters } } := by
    rw [waitForBuild_fresh hcur, waitForBuild_fresh hcur,
      waitForBuild_current (b := l₀.builds.length) rfl]
    simp only [setCaller]
    rw [List.modify_modify_ne _ _ _ (by omega)]
    simp [List.modify_eq_take_drop]
  rw [hsame]
  have hjoined := hshows.waitForBuild (w := othersOnly) (i := i + 1) (j := i) rfl d
  exact (hjoined.modifyUnseen _ fun x => by simp [View.shared, othersOnly]).modifyHidden rfl _

theorem seen_turns (is : List Nat) :
    (is.map fun i => Turn.caller (i + 1)).filterMap othersOnly.turn? = is.map Turn.caller := by
  rw [List.filterMap_map, ← List.filterMap_eq_map]
  rfl

/-- The others have their first turns while the first caller is ahead.  If one of them needs the
    transform, nothing is seen of the first any more. -/
theorem Ahead.foldl (is : List Nat) (h : Ahead l v) (hnodup : is.Nodup)
    (hsettled : Settled (l.behind (is.map fun i => .caller (i + 1))))
    (hbegin : ∀ i ∈ is, ∃ call, call ≠ .script ∧ v.callers[i]? = some { call })
    (hneed : ∃ i ∈ is, ∃ call d, v.callers[i]? = some { call } ∧ call.demand? settings = some d) :
    Shows othersOnly ((is.map fun i => Turn.caller (i + 1)).foldl (turn settings f) l)
        ((is.map Turn.caller).foldl (turn settings f) v) ∧
      Settled ((is.map fun i => Turn.caller (i + 1)).foldl (turn settings f) l) := by
  induction is generalizing l v with
  | nil =>
    obtain ⟨i, hi, -⟩ := hneed
    exact absurd hi List.not_mem_nil
  | cons i is ih =>
    obtain ⟨call, hscript, hc⟩ := hbegin i List.mem_cons_self
    obtain ⟨hnot, hnodup⟩ := List.nodup_cons.mp hnodup
    have hl := callerTurn_begins settings f (h.caller hc)
    have hv := callerTurn_begins settings f hc
    have hnext : Settled ((l.callerTurn settings f (i + 1)).behind
        (is.map fun i => .caller (i + 1))) := by
      rw [← callerTurn_behind]
      exact hsettled.takeTurn
    show Shows othersOnly ((is.map fun i => Turn.caller (i + 1)).foldl (turn settings f)
        (l.callerTurn settings f (i + 1)))
      ((is.map Turn.caller).foldl (turn settings f) (v.callerTurn settings f i)) ∧
      Settled ((is.map fun i => Turn.caller (i + 1)).foldl (turn settings f)
        (l.callerTurn settings f (i + 1)))
    rcases Call.kinds settings call with hcall | ⟨d, hd⟩ | ⟨hd, r, hr⟩
    · exact absurd hcall hscript
    · -- it joins the build
      rw [hl, startCall_needy hd] at hnext ⊢
      rw [hv, startCall_needy hd]
      rw [← seen_turns]
      exact Shows.foldl_turn (fun _ hl => hl.takeTurn) (fun _ _ _ hl _ _ ht => hl.idle ht) _
        (h.joins i d) hnext
    · -- it ends, and somebody behind it needs the transform
      rw [hl, startCall_plain hr] at hnext ⊢
      rw [hv, startCall_plain hr]
      have hothers : ∀ j ∈ is, (v.endCaller i r).callers[j]? = v.callers[j]? := by
        intro j hj
        have hne : i ≠ j := fun hij => hnot (hij ▸ hj)
        rw [endCaller, setCaller, List.getElem?_modify_ne _ _ hne]
      refine ih (h.ends i r) hnodup hnext ?_ ?_
      · intro j hj
        rw [hothers j hj]
        exact hbegin j (List.mem_cons_of_mem i hj)
      · obtain ⟨j, hj, call', d, hc', hd'⟩ := hneed
        rcases List.mem_cons.mp hj with rfl | hj
        · rw [hc, Option.some.injEq, Caller.mk.injEq] at hc'
          rw [← hc'.1, hd] at hd'
          simp at hd'
        · exact ⟨j, hj, call', d, by rw [hothers j hj, hc'], hd'⟩

/-! ## The first tick -/

theorem begun_of_stage (stage : CallerStage) (hs : stage ≠ .unstarted)
    (hcallers : v.callers = l.callers.modify 0 fun c => { c with stage }) :
    AllCallers FirstBegun v := by
  intro i c hc hi hunstarted
  subst hi
  rw [hcallers, List.getElem?_modify] at hc
  obtain ⟨c', -, rfl⟩ := Option.map_eq_some_iff.mp hc
  exact absurd hunstarted hs

/-- The first caller has its first turn: it ends, or it is ahead of the others. -/
theorem first_turn (settings : Settings) (f : Fetcher σ) (hshows : Shows othersOnly l v)
    (hcur : l.current = none) {call : Call}
    (hscript : call ≠ .script) (hc : l.callers[0]? = some ({ call } : Caller)) :
    (Shows othersOnly (l.callerTurn settings f 0) v ∨ Ahead (l.callerTurn settings f 0) v) ∧
      AllCallers FirstBegun (l.callerTurn settings f 0) := by
  have hends : ∀ r, (Shows othersOnly (l.endCaller 0 r) v ∨ Ahead (l.endCaller 0 r) v) ∧
      AllCallers FirstBegun (l.endCaller 0 r) := fun r =>
    ⟨.inl (hshows.modifyHidden rfl _), begun_of_stage (.ended r) (by simp) rfl⟩
  rw [callerTurn_begins settings f hc]
  rcases Call.kinds settings call with hcall | ⟨d, hd⟩ | ⟨-, r, hr⟩
  · exact absurd hcall hscript
  · rw [startCall_needy hd, attend]
    rcases hnone : l.available? with _ | e | t
    · obtain ⟨b, hcallers⟩ := waitForBuild_callers l 0 d
      exact ⟨.inr ⟨l, d, hshows, hcur, hnone, rfl⟩,
        begun_of_stage (.waiting b d) (by simp) hcallers⟩
    · exact hends _
    · exact hends _
  · rw [startCall_plain hr]
    exact hends r

/-- **After the first tick** nothing is seen of the first caller, if another one needs the
    transform. -/
theorem first_tick (s : Session σ) {first : Call} {others : List Call}
    (hcalls : ∀ call ∈ first :: others, call ≠ .script)
    (hneed : ∃ call ∈ others, ∃ d, call.demand? settings = some d) :
    Shows othersOnly (((ofSession s).startAll (first :: others)).tick settings f)
        (((ofSession s).startAll others).tick settings f) ∧
      Settled (((ofSession s).startAll (first :: others)).tick settings f) := by
  have hshows := shows_startAll s first others
  have hsteady := steady_startAll hcalls s
  have hlq := queue_startAll_cons s first others
  have hlc : ((ofSession s).startAll (first :: others)).callers[0]? = some { call := first } :=
    callers_startAll s (first :: others) 0
  have hcur : ((ofSession s).startAll (first :: others)).current = none := by
    rw [ofSession_startAll]
    rfl
  have hvq : ((ofSession s).startAll others).queue =
      (List.range' 0 others.length).map Turn.caller := by
    rw [ofSession_startAll]
  have hvc := callers_startAll s others
  generalize (ofSession s).startAll (first :: others) = l at hshows hsteady hlq hlc hcur
  generalize (ofSession s).startAll others = v at hshows hvq hvc
  have hpop : Shows othersOnly { l with queue := [] } { v with queue := [] } :=
    { hshows with queue := rfl }
  obtain ⟨hturn, hbegun⟩ := first_turn settings f hpop hcur
    (hcalls first List.mem_cons_self) hlc
  have hsettled : Settled (behind ((List.range' 0 others.length).map fun i => .caller (i + 1))
      (({ l with queue := [] } : EventLoop σ).callerTurn settings f 0)) := by
    have hbehind : behind (.caller 0 :: (List.range' 0 others.length).map fun i =>
        .caller (i + 1)) { l with queue := [] } = l := by
      rw [← hlq]
      simp [behind]
    have hnext : Steady (l.takeTurn settings f) := hsteady.takeTurn
    rw [← hbehind] at hnext
    exact ⟨by rwa [← callerTurn_behind], hbegun⟩
  -- the first caller has its turn before the others, who are alone in the second loop
  unfold tick
  rw [hlq, hvq, List.foldl_cons]
  show Shows othersOnly (List.foldl (turn settings f)
    (({ l with queue := [] } : EventLoop σ).callerTurn settings f 0) _) _ ∧ Settled
      (List.foldl (turn settings f) (({ l with queue := [] } : EventLoop σ).callerTurn settings f 0) _)
  rcases hturn with hturn | hahead
  · rw [← seen_turns]
    exact Shows.foldl_turn (fun _ hl => hl.takeTurn) (fun _ _ _ hl _ _ ht => hl.idle ht) _
      hturn hsettled
  · refine hahead.foldl _ List.nodup_range' hsettled ?_ ?_
    · intro i hi
      have hlt : i < others.length := by simpa using hi
      exact ⟨others[i], hcalls _ (List.mem_cons_of_mem _ (List.getElem_mem hlt)),
        by simp [hvc, hlt]⟩
    · obtain ⟨call, hmem, d, hd⟩ := hneed
      obtain ⟨i, hi⟩ := List.mem_iff_getElem?.mp hmem
      have hlt := (List.getElem?_eq_some_iff.mp hi).1
      exact ⟨i, by simpa using hlt, call, d, by simp [hvc, hi], hd⟩

/-! ## Callers that need no transform -/

/-- A caller that does not wait is left alone by all turns but its own. -/
theorem turn_others (hshares : ∀ c ∈ l.callers, c.Shares) {i : Nat} {c : Caller}
    (hc : l.callers[i]? = some c) (hnot : ∀ b d, c.stage ≠ .waiting b d) {t : Turn}
    (ht : t ≠ .caller i) : (l.turn settings f t).callers[i]? = some c := by
  cases t with
  | caller j =>
    have hji : j ≠ i := fun hji => ht (by rw [hji])
    exact (callerTurn_others hshares hji).trans hc
  | build b =>
    refine buildTurn_rule (P := fun l' => l'.callers[i]? = some c) (fun _ => hc)
      fun _ l' _ _ hturn => ?_
    obtain ⟨stage, t, hcallers, -⟩ := hturn.frame
    rw [hcallers, hc]
  | settle b =>
    show (l.settleTurn b).callers[i]? = some c
    rcases ho : l.outcomeOf? b with _ | o
    · rw [settleTurn_none ho, hc]
    · obtain ⟨x, hx, hxo⟩ := Option.bind_eq_some_iff.mp ho
      rw [settleTurn_eq hx hxo, tellAll_callers]
      show (if i ∈ x.waiters then (l.callers[i]?).map _ else l.callers[i]?) = some c
      rw [hc]
      rcases Caller.hear_cases b o c with ⟨hsame, -⟩ | ⟨d, hs, -⟩
      · rw [Option.map_some, hsame, ite_self]
      · exact absurd hs (hnot b d)

/-- A caller that has ended is left alone by all turns. -/
theorem turn_ended (hshares : ∀ c ∈ l.callers, c.Shares) {i : Nat} {c : Caller}
    {r : Except Failure Reply} (hc : l.callers[i]? = some c) (hs : c.stage = .ended r) (t : Turn) :
    (l.turn settings f t).callers[i]? = some c := by
  by_cases ht : t = .caller i
  · rw [ht, turn, callerTurn_ended hc hs, hc]
  · exact turn_others hshares hc (by simp [hs]) ht

theorem ticks_ended (hl : Steady l) {i : Nat} {c : Caller} {r : Except Failure Reply}
    (hc : l.callers[i]? = some c) (hs : c.stage = .ended r) (n : Nat) :
    (l.ticks settings f n).callers[i]? = some c := by
  refine (ticks_invariant (P := fun l => Steady l ∧ l.callers[i]? = some c) ?_ n ⟨hl, hc⟩).2
  rintro l ⟨hl, hc⟩
  refine ⟨hl.takeTurn, ?_⟩
  unfold takeTurn
  rcases l.queue with _ | ⟨t, rest⟩
  · exact hc
  · exact turn_ended (l := { l with queue := rest }) hl.callers_share hc hs t

/-- A caller that needs no transform has its outcome once its turn has come. -/
theorem foldl_plain (ts : List Turn) (hl : Steady (l.behind ts)) {i : Nat} {call : Call}
    {r : Except Failure Reply} (hr : call.plain? settings = some r)
    (hc : (l.callers[i]? = some { call } ∧ .caller i ∈ ts) ∨
      l.callers[i]? = some { call, stage := .ended r }) :
    (ts.foldl (turn settings f) l).callers[i]? = some { call, stage := .ended r } := by
  induction ts generalizing l with
  | nil =>
    rcases hc with ⟨-, hmem⟩ | hc
    · exact absurd hmem List.not_mem_nil
    · exact hc
  | cons t ts ih =>
    have hshares : ∀ c ∈ l.callers, c.Shares := hl.callers_share
    refine ih (by rw [← turn_behind]; exact hl.takeTurn) ?_
    rcases hc with ⟨hc, hmem⟩ | hc
    · by_cases ht : t = .caller i
      · refine .inr ?_
        rw [ht, turn, callerTurn_begins settings f hc, startCall_plain hr]
        simp [endCaller, setCaller, hc]
      · exact .inl ⟨turn_others hshares hc (by simp) ht,
          List.mem_of_ne_of_mem (fun heq => ht heq.symm) hmem⟩
    · exact .inr (turn_ended hshares hc rfl t)

/-- **A caller that needs no transform** has its outcome after the first tick. -/
theorem ticks_plain (hl : Steady l) {i : Nat} {call : Call} {r : Except Failure Reply}
    (hr : call.plain? settings = some r)
    (hc : (l.callers[i]? = some { call } ∧ .caller i ∈ l.queue) ∨
      l.callers[i]? = some { call, stage := .ended r }) {n : Nat} (hn : n ≠ 0) :
    (l.ticks settings f n).callers[i]? = some { call, stage := .ended r } := by
  obtain ⟨n, rfl⟩ := Nat.exists_eq_succ_of_ne_zero hn
  have htick : (l.tick settings f).callers[i]? = some { call, stage := .ended r } :=
    foldl_plain (l := { l with queue := [] }) l.queue (by simpa [behind] using hl) hr hc
  exact ticks_ended (tick_invariant (fun _ h => h.takeTurn) hl) htick rfl n

/-! ## Nobody is harmed -/

/-- The loop after callers have lined up at a session and so many ticks have gone by. -/
def lineUp (settings : Settings) (f : Fetcher σ) (s : Session σ) (calls : List Call) (k : Nat) :
    EventLoop σ :=
  ((ofSession s).startAll calls).ticks settings f k

/-- What can be relied on when callers line up at a session and the first of them is cancelled after
    `k` ticks. -/
structure Unharmed (settings : Settings) (f : Fetcher σ) (s : Session σ) (first : Call)
    (others : List Call) (k : Nat) : Prop where
  /-- After every further tick the other callers are as far as if nobody were cancelled. -/
  same_callers : ∀ n i, i ≠ 0 →
    (((lineUp settings f s (first :: others) k).cancel 0).ticks settings f n).callers[i]? =
      ((lineUp settings f s (first :: others) k).ticks settings f n).callers[i]?
  /-- If one of them needs the transform, the session is the same after every further tick: the
      pieces that are kept and the world, which shows what was asked for. -/
  same_session : (∃ call ∈ others, ∃ d, call.demand? settings = some d) → ∀ n,
    (((lineUp settings f s (first :: others) k).cancel 0).ticks settings f n).session =
      ((lineUp settings f s (first :: others) k).ticks settings f n).session
  /-- And it is the same when all have ended, whenever that is. -/
  same_end : (∃ call ∈ others, ∃ d, call.demand? settings = some d) → ∀ m n,
    (((lineUp settings f s (first :: others) k).cancel 0).ticks settings f m).allEnded = true →
    ((lineUp settings f s (first :: others) k).ticks settings f n).allEnded = true →
    (((lineUp settings f s (first :: others) k).cancel 0).ticks settings f m).session =
      ((lineUp settings f s (first :: others) k).ticks settings f n).session
  /-- All do end, with the cancellation and without it. -/
  all_end : ∃ N, ∀ n, N ≤ n →
    (((lineUp settings f s (first :: others) k).cancel 0).ticks settings f n).allEnded = true ∧
      ((lineUp settings f s (first :: others) k).ticks settings f n).allEnded = true
  /-- To cancel a caller is not to cancel a build, neither at once nor later. -/
  builds_live :
    ((lineUp settings f s (first :: others) k).cancel 0).builds =
        (lineUp settings f s (first :: others) k).builds ∧
      ∀ n, ∀ b ∈ (((lineUp settings f s (first :: others) k).cancel 0).ticks settings f n).builds,
        b.cancelled = false

section Unharmed

variable {s : Session σ} {first : Call} {others : List Call}

theorem steady_lineUp {calls : List Call} (hcalls : ∀ call ∈ calls, call ≠ .script) (k : Nat) :
    Steady (lineUp settings f s calls k) :=
  ticks_invariant (fun _ h => h.takeTurn) k (steady_startAll hcalls s)

theorem attended_lineUp {calls : List Call} (hcalls : ∀ call ∈ calls, call ≠ .script) (k : Nat) :
    Attended none (lineUp settings f s calls k) :=
  (ticks_invariant (P := fun l => Steady l ∧ Attended none l)
    (fun _ h => ⟨h.1.takeTurn, h.2.takeTurn h.1.callers_share h.1.current_lt⟩) k
    ⟨steady_startAll hcalls s, attended_startAll calls s⟩).2

theorem wanted_lineUp {calls : List Call} (hcalls : ∀ call ∈ calls, call ≠ .script) (k : Nat) :
    Wanted (lineUp settings f s calls k) :=
  (ticks_invariant (P := fun l => Steady l ∧ Wanted l)
    (fun _ h => ⟨h.1.takeTurn, h.2.takeTurn h.1.callers_share⟩) k
    ⟨steady_startAll hcalls s, wanted_startAll calls s⟩).2

theorem lineUp_ticks (calls : List Call) (k n : Nat) :
    (lineUp settings f s calls k).ticks settings f n = lineUp settings f s calls (k + n) :=
  (ticks_add k n _).symm

/-- The others are seen as if they came alone, after any number of ticks. -/
theorem lineUp_shows (hcalls : ∀ call ∈ first :: others, call ≠ .script)
    (hneed : ∃ call ∈ others, ∃ d, call.demand? settings = some d) (k : Nat) :
    Shows othersOnly (lineUp settings f s (first :: others) k) (lineUp settings f s others k) := by
  cases k with
  | zero => exact shows_startAll s first others
  | succ k =>
    obtain ⟨hshows, hsettled⟩ := first_tick (f := f) s hcalls hneed
    exact (hsettled.ticks hshows k).1

/-- So they are if the first caller is cancelled. -/
theorem lineUp_cancel_shows (hcalls : ∀ call ∈ first :: others, call ≠ .script)
    (hneed : ∃ call ∈ others, ∃ d, call.demand? settings = some d) (k n : Nat) :
    Shows othersOnly (((lineUp settings f s (first :: others) k).cancel 0).ticks settings f n)
      (lineUp settings f s others (k + n)) := by
  rw [← lineUp_ticks]
  exact ((settled_cancel (steady_lineUp hcalls k)).ticks
    ((lineUp_shows hcalls hneed k).cancelHidden rfl) n).1

/-- What is cancelled is one caller, and no turn is lost. -/
theorem cancel_others (l : EventLoop σ) {i j : Nat} (hij : i ≠ j) :
    (l.cancel i).callers[j]? = l.callers[j]? ∧ ∀ t ∈ l.queue, t ∈ (l.cancel i).queue := by
  unfold EventLoop.cancel
  split
  · exact ⟨rfl, fun _ ht => ht⟩
  · exact ⟨rfl, fun _ ht => ht⟩
  · refine ⟨?_, fun _ ht => List.mem_append_left _ ht⟩
    simp [EventLoop.tell, enqueue, setCaller, List.getElem?_modify_ne _ _ hij]
  · exact ⟨List.getElem?_modify_ne _ _ hij, fun _ ht => ht⟩

/-- Nobody comes beyond those that lined up. -/
theorem callerWise_atMost (settings : Settings) (n : Nat) :
    CallerWise settings fun i _ => i < n where
  marked _ _ h := h
  ended _ _ _ h := h
  waiting _ _ _ _ _ _ h := h
  told _ _ _ _ _ _ h := h
  reading _ _ _ _ _ h := h

theorem lineUp_atMost (calls : List Call) (k : Nat) :
    AllCallers (fun i _ => i < calls.length) (lineUp settings f s calls k) := by
  refine ticks_invariant (fun _ h => h.takeTurn (callerWise_atMost settings calls.length)) k ?_
  intro i c hc
  rw [callers_startAll] at hc
  obtain ⟨call, hcall, -⟩ := Option.map_eq_some_iff.mp hc
  exact (List.getElem?_eq_some_iff.mp hcall).1

theorem no_caller_atMost {n j : Nat} (h : AllCallers (fun i _ => i < n) l) (hj : n ≤ j) :
    l.callers[j]? = none := by
  rcases hc : l.callers[j]? with _ | c
  · rfl
  · exact absurd (h j c hc) (Nat.not_lt.mpr hj)

/-- A caller that lined up and needs no transform is about to have its outcome, or it has it. -/
theorem lineUp_plain {calls : List Call} (hcalls : ∀ call ∈ calls, call ≠ .script) {j : Nat}
    {call : Call} {r : Except Failure Reply} (hcall : calls[j]? = some call)
    (hr : call.plain? settings = some r) (k : Nat) :
    ((lineUp settings f s calls k).callers[j]? = some { call } ∧
        .caller j ∈ (lineUp settings f s calls k).queue) ∨
      (lineUp settings f s calls k).callers[j]? = some { call, stage := .ended r } := by
  have hstart : ((ofSession s).startAll calls).callers[j]? = some { call } ∧
      .caller j ∈ ((ofSession s).startAll calls).queue := by
    have hlt := (List.getElem?_eq_some_iff.mp hcall).1
    refine ⟨by rw [callers_startAll, hcall, Option.map_some], ?_⟩
    rw [ofSession_startAll]
    simp [hlt]
  cases k with
  | zero => exact .inl hstart
  | succ k => exact .inr (ticks_plain (steady_startAll hcalls s) hr (.inl hstart) (by simp))

/-- If none of the others needs the transform, each has its outcome after its first turn. -/
theorem same_plain_callers (hcalls : ∀ call ∈ first :: others, call ≠ .script)
    (hnone : ¬ ∃ call ∈ others, ∃ d, call.demand? settings = some d) (k n i : Nat) (hi : i ≠ 0) :
    (((lineUp settings f s (first :: others) k).cancel 0).ticks settings f n).callers[i]? =
      ((lineUp settings f s (first :: others) k).ticks settings f n).callers[i]? := by
  obtain ⟨j, rfl⟩ := Nat.exists_eq_succ_of_ne_zero hi
  have hsteady : Steady (lineUp settings f s (first :: others) k) := steady_lineUp hcalls k
  obtain ⟨hsame, hqueue⟩ := cancel_others (lineUp settings f s (first :: others) k)
    (i := 0) (j := j + 1) (by omega)
  rcases Nat.eq_zero_or_pos n with rfl | hn
  · exact hsame
  rcases hcall : others[j]? with _ | call
  · -- there is no such caller
    have hfew := callerWise_atMost settings (first :: others).length
    have hline : AllCallers (fun i _ => i < (first :: others).length)
        (lineUp settings f s (first :: others) k) := lineUp_atMost (first :: others) k
    have hj : (first :: others).length ≤ j + 1 :=
      Nat.succ_le_succ (List.getElem?_eq_none_iff.mp hcall)
    rw [no_caller_atMost (ticks_invariant (fun _ h => h.takeTurn hfew) n hline) hj,
      no_caller_atMost (ticks_invariant (fun _ h => h.takeTurn hfew) n (hline.cancel hfew 0)) hj]
  · have hmem := List.mem_of_getElem? hcall
    have hplain : ∃ r, call.plain? settings = some r := by
      rcases Call.kinds settings call with hscript | ⟨d, hd⟩ | ⟨-, hr⟩
      · exact absurd hscript (hcalls call (List.mem_cons_of_mem first hmem))
      · exact absurd ⟨call, hmem, d, hd⟩ hnone
      · exact hr
    obtain ⟨r, hr⟩ := hplain
    have hfar := lineUp_plain (f := f) (s := s) (j := j + 1) hcalls hcall hr k
    rw [ticks_plain hsteady hr hfar (Nat.ne_of_gt hn)]
    refine ticks_plain (hsteady.cancel 0) hr ?_ (Nat.ne_of_gt hn)
    rw [hsame]
    exact hfar.imp_left fun ⟨hc, hq⟩ => ⟨hc, hqueue _ hq⟩

/-- **A caller that is cancelled harms nobody else**, at whatever tick it is cancelled. -/
theorem cancellation_unharmed (settings : Settings) (f : Fetcher σ) (s : Session σ) (first : Call)
    (others : List Call) (hcalls : ∀ call ∈ first :: others, call ≠ .script) (k : Nat) :
    Unharmed settings f s first others k := by
  have hsteady : Steady (lineUp settings f s (first :: others) k) := steady_lineUp hcalls k
  have hattended : Attended none (lineUp settings f s (first :: others) k) :=
    attended_lineUp hcalls k
  have hothers : ∀ call ∈ others, call ≠ .script := fun call hc =>
    hcalls call (List.mem_cons_of_mem first hc)
  refine ⟨?same_callers, ?same_session, ?same_end, ?all_end, ?builds_live⟩
  case same_callers =>
    intro n i hi
    by_cases hneed : ∃ call ∈ others, ∃ d, call.demand? settings = some d
    · obtain ⟨j, rfl⟩ := Nat.exists_eq_succ_of_ne_zero hi
      rw [lineUp_ticks, (lineUp_cancel_shows hcalls hneed k n).callers (j + 1) j rfl,
        (lineUp_shows hcalls hneed (k + n)).callers (j + 1) j rfl]
    · exact same_plain_callers hcalls hneed k n i hi
  case same_session =>
    intro hneed n
    rw [lineUp_ticks, (lineUp_cancel_shows hcalls hneed k n).session,
      (lineUp_shows hcalls hneed (k + n)).session]
  case same_end =>
    intro hneed m n hm hn
    rw [lineUp_ticks] at hn ⊢
    -- whoever looks sees the others ended as well, and then nothing changes any more
    have hfinished : ∀ {l : EventLoop σ} (j : Nat), Shows othersOnly l (lineUp settings f s others j) →
        l.allEnded = true → Finished (lineUp settings f s others j) := by
      intro l j hshows hl
      refine (wanted_lineUp hothers j).finished (List.all_eq_true.mpr fun c hc => ?_)
      obtain ⟨i, hi⟩ := List.mem_iff_getElem?.mp hc
      have hi' := hshows.callers (i + 1) i rfl
      rw [hi, Option.map_some] at hi'
      have hended := List.all_eq_true.mp hl _ (List.mem_of_getElem? hi')
      rwa [Caller.shift_outcome?] at hended
    have hshows := lineUp_cancel_shows (f := f) (s := s) hcalls hneed k m
    have hshows' := lineUp_shows (f := f) (s := s) hcalls hneed (k + n)
    have hlater : ∀ i j, Finished (lineUp settings f s others (k + i)) → i ≤ j →
        (lineUp settings f s others (k + j)).session =
          (lineUp settings f s others (k + i)).session := by
      intro i j hend hij
      obtain ⟨e, rfl⟩ := Nat.exists_eq_add_of_le hij
      rw [← Nat.add_assoc, ← lineUp_ticks]
      exact hend.ticks e
    rw [hshows.session, hshows'.session]
    rcases Nat.le_total m n with hle | hle
    · exact (hlater m n (hfinished _ hshows hm) hle).symm
    · exact hlater n m (hfinished _ hshows' hn) hle
  case all_end =>
    obtain ⟨M, hM⟩ := (hsteady.cancel 0).all_end settings f (hattended.cancel 0)
    obtain ⟨N, hN⟩ := hsteady.all_end settings f hattended
    exact ⟨max M N, fun n hn => ⟨hM n (by omega), hN n (by omega)⟩⟩
  case builds_live =>
    refine ⟨(cancel_quiet 0 _).1, fun n => ?_⟩
    exact (ticks_invariant (fun _ h => h.takeTurn) n (hsteady.cancel 0)).uncancelled

/-- The first of two callers is cancelled while their build reads; the other gets its value. -/
theorem cancellation_unharmed_sample :
    Unharmed sampleSettings Pages.fetcher { world := samplePages } (.decode "ab") [.decode "cd"] 2 ∧
      (((lineUp sampleSettings Pages.fetcher { world := samplePages } [.decode "ab", .decode "cd"]
        2).cancel 0).ticks sampleSettings Pages.fetcher 5).callers.map Caller.outcome? =
        [some (.error cancellation), some (.ok (.text "dc"))] := by
  constructor
  · exact cancellation_unharmed sampleSettings Pages.fetcher { world := samplePages } (.decode "ab")
      [.decode "cd"] (by simp) 2
  · decide +kernel

end Unharmed

end StreamResolver.Cipher.EventLoop
