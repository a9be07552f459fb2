/-
  The order that builds keep.

  As long as no caller reads the script on its own account, the builds of a session are in order
  (`InOrder`) in every state that a run can reach:

    * at most the newest build is current, and a build that has neither ended nor been cancelled is
      the current one;
    * the builds that have turns in the queue are exactly those that have not ended, the older ones
      first;
    * while some build has not ended, nothing is kept; what is kept is one script with all that it
      gave (`Cache.Whole`).

  The crux is the second point.  A build that was dropped by a reset still has one turn, at which
  it clears what is kept.  This turn stands before every turn of a later build, so it cannot clear
  what a later build has kept, and a build that succeeds is the last one that has not ended.
-/
import StreamResolver.Proofs.Cipher.Run
import StreamResolver.Proofs.Cipher.Turn

namespace StreamResolver.Cipher

/-- All or nothing: no piece is kept, or a script is kept with all that it gave. -/
def Cache.Whole (patterns : Patterns) (c : Cache) : Prop :=
  c = {} ∨ ∃ script build, (buildFrom patterns script).value = .ok build ∧
    c = ⟨some script, some build.symbols, some build.table, some build.transform⟩

theorem Cache.Whole.eq_empty {patterns : Patterns} {c : Cache} (h : c.Whole patterns)
    (ht : c.transform = none) : c = {} := by
  rcases h with h | ⟨script, build, -, rfl⟩
  · exact h
  · simp at ht

/-- The build whose turn it is. -/
def Turn.build? : Turn → Option Nat
  | .build i => some i
  | _ => none

namespace EventLoop

variable {σ : Type} {settings : Settings} {f : Fetcher σ}

/-- The builds that have turns, in the order of the queue. -/
def buildTurns (l : EventLoop σ) : List Nat := l.queue.filterMap Turn.build?

/-- Whether a build has been started and has not ended. -/
def Pending (l : EventLoop σ) (i : Nat) : Prop := ∃ b, l.builds[i]? = some b ∧ b.outcome? = none

/-- **What a build's turn keeps**: the build is not there or has ended, or it does one of the six
    things. -/
theorem buildTurn_rule {P : EventLoop σ → Prop} {i : Nat} {l : EventLoop σ}
    (hrests : ¬ l.Pending i → P l)
    (hturns : ∀ b l', l.builds[i]? = some b → b.outcome? = none → BuildTurn settings f i l b l' →
      P l') : P (l.buildTurn settings f i) := by
  rcases hb : l.builds[i]? with _ | b
  · rw [buildTurn_none hb]
    exact hrests fun ⟨b, hb', _⟩ => by simp [hb] at hb'
  rcases ho : b.outcome? with _ | o
  · exact hturns b _ hb ho (buildTurn_cases settings f hb ho)
  · rw [buildTurn_ended hb (SharedBuild.stage_of_outcome? ho)]
    refine hrests fun ⟨b', hb', ho'⟩ => ?_
    rw [hb, Option.some.injEq] at hb'
    rw [← hb', ho] at ho'
    simp at ho'

/-- The order that builds keep. -/
structure InOrder (settings : Settings) (l : EventLoop σ) : Prop where
  callers_share : ∀ c ∈ l.callers, c.Shares
  current_newest : ∀ i, l.current = some i → i + 1 = l.builds.length
  live_current : ∀ i b, l.builds[i]? = some b → b.outcome? = none → b.cancelled = false →
    l.current = some i
  turns_ordered : l.buildTurns.Pairwise (· < ·)
  turns_pending : ∀ i, i ∈ l.buildTurns ↔ l.Pending i
  cache_whole : l.session.cache.Whole settings.patterns
  pending_empty : ∀ i, l.Pending i → l.session.cache = {}
  current_outcome : ∀ i b o, l.current = some i → l.builds[i]? = some b → b.outcome? = some o →
    l.session.cache.transform = o.toOption

theorem inOrder_fresh (settings : Settings) (world : σ) : InOrder settings (fresh world) where
  callers_share := by simp [fresh]
  current_newest := by simp [fresh]
  live_current := by simp [fresh]
  turns_ordered := by simp [fresh, buildTurns]
  turns_pending := by simp [fresh, buildTurns, Pending]
  cache_whole := .inl rfl
  pending_empty := by simp [fresh]
  current_outcome := by simp [fresh]

theorem Pending.lt_length {l : EventLoop σ} {i : Nat} (h : l.Pending i) : i < l.builds.length := by
  obtain ⟨b, hb, -⟩ := h
  exact (List.getElem?_eq_some_iff.mp hb).1

/-- What has not ended when a caller has begun to wait: what had not, and the build that it had to
    start. -/
theorem pending_waitForBuild {l : EventLoop σ} {i j : Nat} {d : Demand} :
    (l.waitForBuild i d).Pending j ↔
      l.Pending j ∨ (l.current = none ∧ j = l.builds.length) := by
  constructor
  · rintro ⟨b, hb, ho⟩
    rcases waitForBuild_builds hb with ⟨b', hb', ho', -⟩ | ⟨hcur, hj, -⟩
    · exact .inl ⟨b', hb', ho'.trans ho⟩
    · exact .inr ⟨hcur, hj⟩
  · rintro (⟨b, hb, ho⟩ | ⟨hcur, rfl⟩)
    · obtain ⟨b', hb', ho', -⟩ := waitForBuild_keeps i d hb
      exact ⟨b', hb', ho'.trans ho⟩
    · rw [waitForBuild_fresh hcur]
      exact ⟨{ waiters := [i] }, List.getElem?_concat_length, rfl⟩

namespace InOrder

theorem current_lt {l : EventLoop σ} (h : InOrder settings l) (b : Nat)
    (hb : l.current = some b) : b < l.builds.length := by
  have := h.current_newest b hb
  omega

/-! ## Changes that builds do not notice -/

/-- The order only depends on the builds, their turns, the current one and the kept pieces. -/
theorem congr {l l' : EventLoop σ} (h : InOrder settings l) (hcallers : ∀ c ∈ l'.callers, c.Shares)
    (hbuilds : l'.builds = l.builds) (hcurrent : l'.current = l.current)
    (hturns : l'.buildTurns = l.buildTurns) (hcache : l'.session.cache = l.session.cache) :
    InOrder settings l' where
  callers_share := hcallers
  current_newest := by rw [hcurrent, hbuilds]; exact h.current_newest
  live_current := by rw [hcurrent, hbuilds]; exact h.live_current
  turns_ordered := by rw [hturns]; exact h.turns_ordered
  turns_pending := by
    simp only [hturns, Pending, hbuilds]
    exact h.turns_pending
  cache_whole := by rw [hcache]; exact h.cache_whole
  pending_empty := by
    simp only [hcache, Pending, hbuilds]
    exact h.pending_empty
  current_outcome := by rw [hcurrent, hbuilds, hcache]; exact h.current_outcome

theorem shares_modify {cs : List Caller} {i : Nat} {g : Caller → Caller} (h : ∀ c ∈ cs, c.Shares)
    (hg : ∀ c, c.Shares → (g c).Shares) : ∀ c ∈ cs.modify i g, c.Shares := by
  intro c hc
  obtain ⟨j, hj⟩ := List.mem_iff_getElem?.mp hc
  rw [List.getElem?_modify] at hj
  rcases hcj : cs[j]? with _ | c'
  · simp [hcj] at hj
  · have hshares := h c' (List.mem_of_getElem? hcj)
    simp only [hcj, Option.map_eq_map, Option.map_some, Option.some.injEq] at hj
    subst hj
    split
    · exact hg c' hshares
    · exact hshares

theorem endCaller {l : EventLoop σ} (h : InOrder settings l) (i : Nat) (r : Except Failure Reply) :
    InOrder settings (l.endCaller i r) :=
  h.congr (shares_modify h.callers_share fun _ hc => ⟨hc.1, by simp⟩) rfl rfl rfl rfl

theorem tell {l : EventLoop σ} (h : InOrder settings l) (i : Nat) (d : Demand)
    (o : Except Failure Transform) : InOrder settings (l.tell i d o) :=
  h.congr (shares_modify h.callers_share fun _ hc => ⟨hc.1, by simp⟩) rfl rfl
    (by simp [buildTurns, EventLoop.tell, enqueue, setCaller, Turn.build?]) rfl

/-- A turn of a caller or a settling may leave the queue. -/
theorem pop {l : EventLoop σ} {t : Turn} {rest : List Turn} (h : InOrder settings l)
    (hq : l.queue = t :: rest) (ht : t.build? = none) :
    InOrder settings { l with queue := rest } :=
  h.congr h.callers_share rfl rfl (by simp [buildTurns, hq, ht]) rfl

theorem newCaller {l : EventLoop σ} (h : InOrder settings l) {call : Call} (hc : call ≠ .script) :
    InOrder settings { l with callers := l.callers ++ [({ call } : Caller)] } := by
  refine h.congr (fun c hmem => ?_) rfl rfl rfl rfl
  rcases List.mem_append.mp hmem with hmem | hmem
  · exact h.callers_share c hmem
  · rw [List.mem_singleton.mp hmem]
    exact ⟨hc, by simp⟩

theorem cancel {l : EventLoop σ} (h : InOrder settings l) (i : Nat) :
    InOrder settings (l.cancel i) := by
  unfold EventLoop.cancel
  split
  · exact h
  · exact h
  · exact h.tell i _ _
  · exact h.congr (shares_modify h.callers_share fun _ hc => hc) rfl rfl rfl rfl

theorem settle {l : EventLoop σ} (h : InOrder settings l) (i : Nat) :
    InOrder settings (l.settleTurn i) := by
  rcases hb : l.builds[i]? with _ | b
  · simpa [settleTurn, hb] using h
  rcases ho : b.outcome? with _ | o
  · simpa [settleTurn, hb, ho] using h
  -- first the build ceases to be current, which it may as it has ended
  have hdrop : InOrder settings
      { l with current := if l.current = some i then none else l.current } := by
    refine { h with current_newest := ?_, live_current := ?_, current_outcome := ?_ }
    · intro j hj
      dsimp only at hj
      split at hj
      · simp at hj
      · exact h.current_newest j hj
    · intro j b' hb' ho' hc'
      have hcurrent := h.live_current j b' hb' ho' hc'
      have hne : j ≠ i := by
        rintro rfl
        rw [hb, Option.some.injEq] at hb'
        rw [← hb', ho] at ho'
        simp at ho'
      simp [hcurrent, hne]
    · intro j b' o' hj
      dsimp only at hj
      split at hj
      · simp at hj
      · exact h.current_outcome j b' o' hj
  rw [settleTurn_eq hb ho]
  obtain ⟨hsession, hbuilds, hcurrent, -, js, hq⟩ := tellAll_frame i o b.waiters
    { l with current := if l.current = some i then none else l.current }
  refine hdrop.congr ?_ hbuilds hcurrent ?_ (by rw [hsession])
  · -- whoever hears of the outcome goes on with the same call
    intro c hc
    obtain ⟨j, hj⟩ := List.mem_iff_getElem?.mp hc
    rw [tellAll_callers] at hj
    split at hj
    · obtain ⟨c', hc', rfl⟩ := Option.map_eq_some_iff.mp hj
      have hshares := h.callers_share c' (List.mem_of_getElem? hc')
      unfold Caller.hear
      split
      · split
        · exact ⟨hshares.1, by simp⟩
        · exact hshares
      · exact hshares
    · exact h.callers_share c (List.mem_of_getElem? hj)
  · -- the turns that are lined up are turns of callers
    rw [buildTurns, hq, List.filterMap_append, List.filterMap_map]
    simp [buildTurns, Turn.build?]

/-! ## A caller that waits -/

/-- Nothing is kept while a demand finds nothing available. -/
theorem empty_of_unavailable {l : EventLoop σ} (h : InOrder settings l)
    (hnone : l.available? = none) : l.session.cache = {} := by
  refine h.cache_whole.eq_empty ?_
  rcases ht : l.session.cache.transform with _ | t
  · rfl
  · simp [available?, ht] at hnone

theorem waitForBuild_first {l : EventLoop σ} (h : InOrder settings l) (i : Nat) (d : Demand)
    (hempty : l.session.cache = {}) (hcur : l.current = none) :
    InOrder settings (l.waitForBuild i d) := by
  have hpending : ∀ j, (l.waitForBuild i d).Pending j ↔ l.Pending j ∨ j = l.builds.length := by
    simp [pending_waitForBuild, hcur]
  rw [waitForBuild_fresh hcur] at hpending ⊢
  have hturns : buildTurns (setCaller i (.waiting l.builds.length d)
      { l with
        builds := l.builds ++ [({ waiters := [i] } : SharedBuild)]
        current := some l.builds.length
        queue := l.queue ++ [Turn.build l.builds.length] }) =
      l.buildTurns ++ [l.builds.length] := by
    simp [buildTurns, setCaller, List.filterMap_append, Turn.build?]
  refine ⟨?_, ?_, ?_, ?_, ?_, .inl hempty, fun _ _ => hempty, ?_⟩
  · exact shares_modify h.callers_share fun _ hc => ⟨hc.1, by simp⟩
  · -- the new build is the newest
    intro j hj
    simp only [setCaller, Option.some.injEq] at hj
    simp [setCaller, ← hj]
  · intro j b hb ho hc
    rcases getElem?_concat_cases hb with hold | ⟨rfl, -⟩
    · -- no older build is live, since none is current
      have hlive := h.live_current j b hold ho hc
      simp [hcur] at hlive
    · rfl
  · -- the new turn stands behind those of the older builds
    rw [hturns, List.pairwise_append]
    refine ⟨h.turns_ordered, by simp, ?_⟩
    intro j hj k hk
    rw [List.mem_singleton.mp hk]
    exact ((h.turns_pending j).mp hj).lt_length
  · intro j
    rw [hturns, hpending, List.mem_append, h.turns_pending, List.mem_singleton]
  · -- the new build has no outcome yet
    intro j b o hj hb ho
    simp only [setCaller, Option.some.injEq] at hj
    subst hj
    simp only [setCaller, List.getElem?_concat_length, Option.some.injEq] at hb
    subst hb
    simp [SharedBuild.outcome?] at ho

theorem waitForBuild_more {l : EventLoop σ} (h : InOrder settings l) (i n : Nat) (d : Demand)
    (hempty : l.session.cache = {}) (hcur : l.current = some n) :
    InOrder settings (l.waitForBuild i d) := by
  have hpending : ∀ j, (l.waitForBuild i d).Pending j ↔ l.Pending j := by
    simp [pending_waitForBuild, hcur]
  -- only the waiters of the current build change
  have hsame : ∀ (j : Nat) (b : SharedBuild), (l.waitForBuild i d).builds[j]? = some b →
      ∃ b', l.builds[j]? = some b' ∧ b'.outcome? = b.outcome? ∧ b'.cancelled = b.cancelled := by
    intro j b hb
    rcases waitForBuild_builds hb with hold | ⟨hnone, -⟩
    · exact hold
    · simp [hcur] at hnone
  rw [waitForBuild_current hcur] at hpending hsame ⊢
  refine ⟨?_, ?_, ?_, h.turns_ordered, ?_, .inl hempty, fun _ _ => hempty, ?_⟩
  · exact shares_modify h.callers_share fun _ hc => ⟨hc.1, by simp⟩
  · intro j hj
    simp only [setCaller, List.length_modify]
    exact h.current_newest j hj
  · intro j b hb ho hc
    obtain ⟨b', hb', ho', hc'⟩ := hsame j b hb
    exact h.live_current j b' hb' (ho'.trans ho) (hc'.trans hc)
  · intro j
    rw [hpending]
    exact h.turns_pending j
  · intro j b o hj hb ho
    obtain ⟨b', hb', ho', -⟩ := hsame j b hb
    exact h.current_outcome j b' o hj hb' (ho'.trans ho)

theorem waitForBuild {l : EventLoop σ} (h : InOrder settings l) (i : Nat) (d : Demand)
    (hnone : l.available? = none) : InOrder settings (l.waitForBuild i d) := by
  have hempty := h.empty_of_unavailable hnone
  rcases hcur : l.current with _ | n
  · exact h.waitForBuild_first i d hempty hcur
  · exact h.waitForBuild_more i n d hempty hcur

theorem callerTurn {l : EventLoop σ} (h : InOrder settings l) (i : Nat) :
    InOrder settings (l.callerTurn settings f i) := by
  refine callerTurn_rule f h.callers_share ?_ ?_ ?_
  · exact fun _ => h
  · exact fun _ r _ => h.endCaller i r
  · exact fun _ d _ _ _ hnone => h.waitForBuild i d hnone

/-! ## A reset -/

theorem reset {l : EventLoop σ} (h : InOrder settings l) : InOrder settings l.reset := by
  -- a reset only marks the current build as cancelled
  have hsame : ∀ (j : Nat) (b : SharedBuild), l.reset.builds[j]? = some b →
      ∃ b', l.builds[j]? = some b' ∧ b'.outcome? = b.outcome? ∧
        (b.outcome? = none → b.cancelled = false → b'.cancelled = false ∧ l.current ≠ some j) := by
    intro j b hb
    rcases hcur : l.current with _ | n
    · rw [reset_none hcur] at hb
      exact ⟨b, hb, rfl, fun _ hc => ⟨hc, by simp⟩⟩
    · rw [reset_some hcur] at hb
      simp only [cancelBuild, List.getElem?_modify] at hb
      obtain ⟨b', hb', heq⟩ := Option.map_eq_some_iff.mp hb
      refine ⟨b', hb', ?_⟩
      by_cases hnj : n = j
      · subst hnj
        simp only [if_true] at heq
        split at heq
        · next hended =>
          subst heq
          exact ⟨rfl, fun ho => by simp [ho] at hended⟩
        · subst heq
          exact ⟨rfl, fun _ hc => by simp at hc⟩
      · simp only [hnj, if_false] at heq
        subst heq
        exact ⟨rfl, fun _ hc => ⟨hc, by simpa using hnj⟩⟩
  have hpending : ∀ j, l.reset.Pending j ↔ l.Pending j := by
    intro j
    constructor
    · rintro ⟨b, hb, ho⟩
      obtain ⟨b', hb', ho', -⟩ := hsame j b hb
      exact ⟨b', hb', ho'.trans ho⟩
    · rintro ⟨b, hb, ho⟩
      rcases hcur : l.current with _ | n
      · rw [Pending, reset_none hcur]
        exact ⟨b, hb, ho⟩
      · rw [Pending, reset_some hcur]
        simp only [cancelBuild, List.getElem?_modify, hb]
        by_cases hnj : n = j
        · subst hnj
          exact ⟨{ b with cancelled := true }, by simp [ho], ho⟩
        · exact ⟨b, by simp [hnj], ho⟩
  have hturns : l.reset.buildTurns = l.buildTurns := by
    unfold EventLoop.reset
    cases l.current <;> rfl
  have hempty : l.reset.session.cache = {} := rfl
  have hcurrent : l.reset.current = none := rfl
  refine ⟨?_, by simp [hcurrent], ?_, by rw [hturns]; exact h.turns_ordered, ?_, .inl hempty,
    fun _ _ => hempty, by simp [hcurrent]⟩
  · have hcallers : l.reset.callers = l.callers := by
      unfold EventLoop.reset
      cases l.current <;> rfl
    rw [hcallers]
    exact h.callers_share
  · -- the only build that was live is cancelled now
    intro j b hb ho hc
    obtain ⟨b', hb', ho', hlive⟩ := hsame j b hb
    obtain ⟨hc', hne⟩ := hlive ho hc
    exact absurd (h.live_current j b' hb' (ho'.trans ho) hc') hne
  · intro j
    rw [hturns, hpending]
    exact h.turns_pending j

/-! ## A build's turn -/

theorem buildTurns_cons {l : EventLoop σ} {i : Nat} {rest : List Turn}
    (hq : l.queue = .build i :: rest) : l.buildTurns = i :: rest.filterMap Turn.build? := by
  rw [buildTurns, hq]
  rfl

/-- The turn of a build is the turn of one that has not ended. -/
theorem pending_of_turn {l : EventLoop σ} (h : InOrder settings l) {i : Nat} {rest : List Turn}
    (hq : l.queue = .build i :: rest) : l.Pending i :=
  (h.turns_pending i).mp (by rw [buildTurns_cons hq]; exact List.mem_cons_self)

/-- A build that has not ended has a turn. -/
theorem mem_queue {l : EventLoop σ} (h : InOrder settings l) {i : Nat} (hi : l.Pending i) :
    .build i ∈ l.queue := by
  obtain ⟨t, ht, hbuild⟩ := List.mem_filterMap.mp ((h.turns_pending i).mpr hi)
  cases t with
  | build j => exact Option.some.inj hbuild ▸ ht
  | _ => simp [Turn.build?] at hbuild

/-- Behind the turn of a build that was not cancelled there is no other build's turn: it is the
    newest, and older ones stand before it. -/
theorem no_turns_behind {l : EventLoop σ} (h : InOrder settings l) {i : Nat} {rest : List Turn}
    {b : SharedBuild} (hq : l.queue = .build i :: rest) (hb : l.builds[i]? = some b)
    (ho : b.outcome? = none) (hc : b.cancelled = false) : rest.filterMap Turn.build? = [] := by
  refine List.eq_nil_iff_forall_not_mem.mpr fun j hj => ?_
  have hnewest : i + 1 = l.builds.length := h.current_newest i (h.live_current i b hb ho hc)
  have hordered := h.turns_ordered
  rw [buildTurns_cons hq] at hordered
  have hlt : i < j := List.rel_of_pairwise_cons hordered hj
  have hpending : l.Pending j :=
    (h.turns_pending j).mp (by rw [buildTurns_cons hq]; exact List.mem_cons_of_mem i hj)
  have hlength := hpending.lt_length
  omega

/-- The loop after build `i` went on to a new stage. -/
theorem setStage_getElem? (builds : List SharedBuild) (i j : Nat) (stage : BuildStage) :
    (builds.modify i fun b => { b with stage })[j]? =
      if i = j then (builds[j]?).map fun b => { b with stage } else builds[j]? := by
  rw [List.getElem?_modify]
  split
  · rfl
  · exact id_map _

/-- After a build went on it is at its new stage, and the other builds are as they were. -/
theorem setStage_cases {builds : List SharedBuild} {i j : Nat} {b b' : SharedBuild}
    {stage : BuildStage} (hb : builds[i]? = some b)
    (hb' : (builds.modify i fun b => { b with stage })[j]? = some b') :
    (j = i ∧ b' = { b with stage }) ∨ (j ≠ i ∧ builds[j]? = some b') := by
  rw [setStage_getElem?] at hb'
  split at hb'
  · next hij =>
    rw [← hij, hb, Option.map_some, Option.some.injEq] at hb'
    exact .inl ⟨hij.symm, hb'.symm⟩
  · next hij => exact .inr ⟨fun hji => hij hji.symm, hb'⟩

/-- A build that asks for a text goes on, and nothing is kept meanwhile. -/
theorem goesOn {l : EventLoop σ} (h : InOrder settings l) {i : Nat} {rest : List Turn}
    {b : SharedBuild} (hq : l.queue = .build i :: rest) (hb : l.builds[i]? = some b)
    (ho : b.outcome? = none) (hc : b.cancelled = false) (r : Reading) (w : σ)
    (events : List Event) :
    InOrder settings ((({ l with
        session := ⟨l.session.cache, w⟩, events, queue := rest } : EventLoop σ).setBuild i
      (.reading r)).enqueue (.build i)) := by
  have hrest := h.no_turns_behind hq hb ho hc
  have hturns : l.buildTurns = [i] := by rw [buildTurns_cons hq, hrest]
  have hcurrent := h.live_current i b hb ho hc
  refine ⟨h.callers_share, ?_, ?_, ?_, ?_, h.cache_whole, ?_, ?_⟩
  · -- there are as many builds as before
    intro j hj
    simp only [enqueue, setBuild, List.length_modify]
    exact h.current_newest j hj
  · -- whichever build is live, it was live before
    intro j b' hb' ho' hc'
    rcases setStage_cases hb hb' with ⟨rfl, -⟩ | ⟨-, hb'⟩
    · exact hcurrent
    · exact h.live_current j b' hb' ho' hc'
  · simp [buildTurns, enqueue, setBuild, List.filterMap_append, hrest, Turn.build?]
  · -- the build has a turn again, and it has not ended
    intro j
    have hmem : j ∈ [i] ↔ l.Pending j := by rw [← hturns]; exact h.turns_pending j
    have hlive : j ∈ buildTurns ((({ l with
        session := ⟨l.session.cache, w⟩, events, queue := rest } : EventLoop σ).setBuild i
          (.reading r)).enqueue (.build i)) ↔ j ∈ [i] := by
      simp [buildTurns, enqueue, setBuild, List.filterMap_append, hrest, Turn.build?]
    rw [hlive]
    constructor
    · intro hj
      rw [List.mem_singleton.mp hj]
      exact ⟨{ b with stage := .reading r }, by simp [enqueue, setBuild, hb], rfl⟩
    · rintro ⟨b', hb', ho'⟩
      rcases setStage_cases hb hb' with ⟨rfl, -⟩ | ⟨-, hb'⟩
      · exact List.mem_singleton_self _
      · exact hmem.mpr ⟨b', hb', ho'⟩
  · intro j _
    exact h.pending_empty i ⟨b, hb, ho⟩
  · -- a build that has ended is another one
    intro j b' o hj hb' ho'
    rcases setStage_cases hb hb' with ⟨-, rfl⟩ | ⟨-, hb'⟩
    · simp [SharedBuild.outcome?] at ho'
    · exact h.current_outcome j b' o hj hb' ho'

/-- A build ends: it fails and leaves nothing, or it was not cancelled and leaves all it built. -/
theorem ends {l : EventLoop σ} (h : InOrder settings l) {i : Nat} {rest : List Turn}
    {b : SharedBuild} (hq : l.queue = .build i :: rest) (hb : l.builds[i]? = some b)
    (ho : b.outcome? = none) (o : Except Failure Transform) (s : Session σ) (events : List Event)
    (hs : (s.cache = {} ∧ o.toOption = none) ∨
      (b.cancelled = false ∧ s.cache.Whole settings.patterns ∧ s.cache.transform = o.toOption)) :
    InOrder settings
      (({ l with session := s, events, queue := rest } : EventLoop σ).endBuild i o) := by
  have hempty := h.pending_empty i ⟨b, hb, ho⟩
  have hturns : buildTurns
      (({ l with session := s, events, queue := rest } : EventLoop σ).endBuild i o) =
      rest.filterMap Turn.build? := by
    simp [buildTurns, endBuild, enqueue, setBuild, List.filterMap_append, Turn.build?]
  have hordered := h.turns_ordered
  rw [buildTurns_cons hq, List.pairwise_cons] at hordered
  have hpending : ∀ j, Pending
      (({ l with session := s, events, queue := rest } : EventLoop σ).endBuild i o) j ↔
      l.Pending j ∧ j ≠ i := by
    intro j
    constructor
    · rintro ⟨b', hb', ho'⟩
      rcases setStage_cases hb hb' with ⟨-, rfl⟩ | ⟨hji, hb'⟩
      · simp [SharedBuild.outcome?] at ho'
      · exact ⟨⟨b', hb', ho'⟩, hji⟩
    · rintro ⟨⟨b', hb', ho'⟩, hji⟩
      refine ⟨b', ?_, ho'⟩
      show (l.builds.modify i _)[j]? = some b'
      rw [setStage_getElem?, if_neg (fun hij => hji hij.symm)]
      exact hb'
  refine ⟨h.callers_share, ?_, ?_, by rw [hturns]; exact hordered.2, ?_, ?_, ?_, ?_⟩
  · -- there are as many builds as before
    intro j hj
    simp only [endBuild, enqueue, setBuild, List.length_modify]
    exact h.current_newest j hj
  · -- a build that is live is another one
    intro j b' hb' ho' hc'
    rcases setStage_cases hb hb' with ⟨-, rfl⟩ | ⟨-, hb'⟩
    · simp [SharedBuild.outcome?] at ho'
    · exact h.live_current j b' hb' ho' hc'
  · -- the build has lost its turn, and it has ended
    intro j
    rw [hturns, hpending, ← h.turns_pending, buildTurns_cons hq]
    constructor
    · intro hj
      exact ⟨List.mem_cons_of_mem i hj, Nat.ne_of_gt (hordered.1 j hj)⟩
    · rintro ⟨hj, hji⟩
      exact List.mem_of_ne_of_mem hji hj
  · rcases hs with ⟨hcache, -⟩ | ⟨-, hwhole, -⟩
    · exact .inl hcache
    · exact hwhole
  · intro j hj
    obtain ⟨hj, hji⟩ := (hpending j).mp hj
    rcases hs with ⟨hcache, -⟩ | ⟨hc, -, -⟩
    · exact hcache
    · -- no other build is left beside one that was not cancelled
      have hmem := (h.turns_pending j).mpr hj
      rw [buildTurns_cons hq, h.no_turns_behind hq hb ho hc] at hmem
      exact absurd (List.mem_singleton.mp hmem) hji
  · intro j b' o' hj hb' ho'
    rcases setStage_cases hb hb' with ⟨-, rfl⟩ | ⟨hji, hb'⟩
    · obtain rfl : o = o' := by simpa [SharedBuild.outcome?] using ho'
      rcases hs with ⟨hcache, hnone⟩ | ⟨-, -, htransform⟩
      · rw [hnone]
        show s.cache.transform = none
        rw [hcache]
      · exact htransform
    · have hold := h.current_outcome j b' o' hj hb' ho'
      rcases hs with ⟨hcache, -⟩ | ⟨hc, -, -⟩
      · rw [← hold, hempty]
        show s.cache.transform = none
        rw [hcache]
      · -- the build that ends was the current one
        have hcurrent := h.live_current i b hb ho hc
        rw [show l.current = some j from hj, Option.some.injEq] at hcurrent
        exact absurd hcurrent hji

theorem buildTurn {l : EventLoop σ} (h : InOrder settings l) {i : Nat} {rest : List Turn}
    (hq : l.queue = .build i :: rest) :
    InOrder settings (({ l with queue := rest } : EventLoop σ).buildTurn settings f i) := by
  obtain ⟨b, hb, ho⟩ := h.pending_of_turn hq
  have hempty := h.pending_empty i ⟨b, hb, ho⟩
  have hturn := buildTurn_cases settings f (l := { l with queue := rest }) hb ho
  generalize ({ l with queue := rest } : EventLoop σ).buildTurn settings f i = l' at hturn
  cases hturn with
  | neverStarts _ _ => exact h.ends hq hb ho _ l.session l.events (.inl ⟨hempty, rfl⟩)
  | givesUp r events _ _ => exact h.ends hq hb ho _ l.session.clear events (.inl ⟨rfl, rfl⟩)
  | asksForPage events _ hc _ => exact h.goesOn hq hb ho hc .page _ events
  | asksForSource page url w events events' _ hc _ _ =>
    exact h.goesOn hq hb ho hc (.source url) _ events
  | succeeds script build w events hc _ hbuild =>
    exact h.ends hq hb ho _ _ events (.inr ⟨hc, .inr ⟨script, build, hbuild, rfl⟩, rfl⟩)
  | fails e w events _ _ => exact h.ends hq hb ho _ _ events (.inl ⟨rfl, rfl⟩)

/-! ## Every run -/

theorem takeTurn {l : EventLoop σ} (h : InOrder settings l) :
    InOrder settings (l.takeTurn settings f) := by
  unfold EventLoop.takeTurn
  split
  · exact h
  · next t rest hq =>
    cases t with
    | caller i => exact (h.pop hq rfl).callerTurn i
    | build i => exact h.buildTurn hq
    | settle i => exact (h.pop hq rfl).settle i

theorem startAtOnce {l : EventLoop σ} (h : InOrder settings l) {call : Call}
    (hc : call ≠ .script) : InOrder settings (l.startAtOnce settings f call) :=
  (h.newCaller hc).callerTurn _

theorem start {l : EventLoop σ} (h : InOrder settings l) {call : Call} (hc : call ≠ .script) :
    InOrder settings (l.start call) :=
  (h.newCaller hc).congr (h.newCaller hc).callers_share rfl rfl
    (by simp [buildTurns, EventLoop.start, enqueue, Turn.build?]) rfl

/-- **One deed keeps the order.** -/
theorem perform {l : EventLoop σ} (h : InOrder settings l) {d : Deed σ} (hd : d.Shares) :
    InOrder settings (EventLoop.perform settings f l d) := by
  cases d with
  | start call => exact h.start hd
  | startAtOnce call => exact h.startAtOnce hd
  | cancel i => exact h.cancel i
  | reset => exact h.reset
  | change g => exact h.congr h.callers_share rfl rfl rfl rfl
  | turn => exact h.takeTurn

end InOrder

/-- **Every run keeps the order.** -/
theorem run_inOrder {ds : List (Deed σ)} (hds : ∀ d ∈ ds, d.Shares) {l : EventLoop σ}
    (h : InOrder settings l) : InOrder settings (run settings f ds l) :=
  run_invariant (fun _ _ hl hd => hl.perform hd) hds h

end EventLoop

end StreamResolver.Cipher
