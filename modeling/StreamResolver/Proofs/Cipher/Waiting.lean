/-
  Nobody waits for nothing.

  In every state that a run can reach, whoever has something to do will get a turn (`Attended`): a
  caller that is due stands in the queue, and a caller that waits for a build is among its waiters,
  with the settling of the build in the queue if the build has ended.

  A caller's own turn is taken out of the queue before it is performed, and a caller that starts at
  once never stood there.  So the turn of caller `i` starts from a state where everybody but `i` is
  attended to (`Attended (some i)`), and leaves one where everybody is.
-/
import StreamResolver.Proofs.Cipher.Frame

namespace StreamResolver.Cipher.EventLoop

variable {σ : Type} {settings : Settings} {f : Fetcher σ}

/-- Whoever waits is known to the build, and whoever is due has a turn, one caller perhaps
    excepted. -/
structure Attended (except : Option Nat) (l : EventLoop σ) : Prop where
  waiting : ∀ i c b d, l.callers[i]? = some c → c.stage = .waiting b d →
    c.cancelled = false ∧ ∃ sb, l.builds[b]? = some sb ∧ i ∈ sb.waiters ∧
      (sb.outcome? ≠ none → .settle b ∈ l.queue)
  due : ∀ i c, except ≠ some i → l.callers[i]? = some c → c.IsDue → .caller i ∈ l.queue

theorem attended_fresh (world : σ) : Attended none (fresh world) where
  waiting := by simp [fresh]
  due := by simp [fresh]

namespace Attended

variable {l : EventLoop σ}

/-- A caller's turn leaves the queue. -/
theorem popCaller (h : Attended none l) {i : Nat} {rest : List Turn}
    (hq : l.queue = .caller i :: rest) : Attended (some i) { l with queue := rest } where
  waiting j c b d hc hs := by
    obtain ⟨hcancelled, sb, hb, hmem, hsettle⟩ := h.waiting j c b d hc hs
    refine ⟨hcancelled, sb, hb, hmem, fun ho => ?_⟩
    have hin := hsettle ho
    rw [hq] at hin
    simpa using hin
  due j c hj hc hdue := by
    have hin := h.due j c (by simp) hc hdue
    rw [hq] at hin
    have hne : ¬ j = i := fun hji => hj (by rw [hji])
    simpa [hne] using hin

/-! ## A caller's turn -/

theorem endCaller {i : Nat} (h : Attended (some i) l) (r : Except Failure Reply) :
    Attended none (l.endCaller i r) where
  waiting j c b d hc hs := by
    simp only [EventLoop.endCaller, setCaller, List.getElem?_modify] at hc
    by_cases hij : i = j
    · obtain ⟨c', -, rfl⟩ := Option.map_eq_some_iff.mp hc
      simp [hij] at hs
    · simp only [hij, if_false] at hc
      exact h.waiting j c b d (by simpa using hc) hs
  due j c _ hc hdue := by
    simp only [EventLoop.endCaller, setCaller, List.getElem?_modify] at hc
    by_cases hij : i = j
    · obtain ⟨c', -, rfl⟩ := Option.map_eq_some_iff.mp hc
      simp [hij, Caller.IsDue] at hdue
    · simp only [hij, if_false] at hc
      exact h.due j c (by simpa using hij) (by simpa using hc) hdue

/-- A caller that rests was not due. -/
theorem rests {i : Nat} (h : Attended (some i) l)
    (hrests : ∀ c, l.callers[i]? = some c → ¬ c.IsDue) : Attended none l where
  waiting := h.waiting
  due j c _ hc hdue := by
    by_cases hij : i = j
    · subst hij
      exact absurd hdue (hrests c hc)
    · exact h.due j c (by simpa using hij) hc hdue

/-- The builds are still there, each with its waiters; one that has ended meanwhile is to be
    settled. -/
def BuildsStand (l l' : EventLoop σ) : Prop :=
  ∀ (b : Nat) (sb : SharedBuild), l.builds[b]? = some sb → ∃ sb' : SharedBuild,
    l'.builds[b]? = some sb' ∧ (∀ j ∈ sb.waiters, j ∈ sb'.waiters) ∧
      (sb'.outcome? = sb.outcome? ∨ .settle b ∈ l'.queue)

/-- A caller that waits joins a build that has not ended, and the builds keep their waiters. -/
theorem joins {i n : Nat} {d : Demand} {l' : EventLoop σ} (h : Attended (some i) l) {c : Caller}
    (hc : l.callers[i]? = some c) (hcancelled : c.cancelled = false)
    (hcallers : l'.callers = l.callers.modify i fun c => { c with stage := .waiting n d })
    (hqueue : ∀ t ∈ l.queue, t ∈ l'.queue)
    (hbuilds : BuildsStand l l')
    (hjoin : ∃ sb : SharedBuild, l'.builds[n]? = some sb ∧ i ∈ sb.waiters ∧ sb.outcome? = none) :
    Attended none l' where
  waiting j c' b d' hc' hs := by
    rw [hcallers, List.getElem?_modify] at hc'
    by_cases hij : i = j
    · subst hij
      rw [hc] at hc'
      simp only [if_true, Option.map_eq_map, Option.map_some, Option.some.injEq] at hc'
      subst hc'
      simp only [CallerStage.waiting.injEq] at hs
      obtain ⟨rfl, rfl⟩ := hs
      obtain ⟨sb, hsb, hmem, hnone⟩ := hjoin
      exact ⟨hcancelled, sb, hsb, hmem, fun ho => absurd hnone ho⟩
    · simp only [hij, if_false] at hc'
      obtain ⟨hfalse, sb, hsb, hmem, hsettle⟩ := h.waiting j c' b d' (by simpa using hc') hs
      obtain ⟨sb', hsb', hwaiters, ho⟩ := hbuilds b sb hsb
      refine ⟨hfalse, sb', hsb', hwaiters j hmem, fun hne => ?_⟩
      rcases ho with ho | hin
      · exact hqueue _ (hsettle (ho ▸ hne))
      · exact hin
  due j c' _ hc' hdue := by
    rw [hcallers, List.getElem?_modify] at hc'
    by_cases hij : i = j
    · obtain ⟨c'', -, rfl⟩ := Option.map_eq_some_iff.mp hc'
      simp [hij, Caller.IsDue] at hdue
    · simp only [hij, if_false] at hc'
      exact hqueue _ (h.due j c' (by simpa using hij) (by simpa using hc') hdue)

theorem waitForBuild {i : Nat} {d : Demand} (h : Attended (some i) l)
    (hcurrent : ∀ b, l.current = some b → b < l.builds.length)
    {c : Caller} (hc : l.callers[i]? = some c) (hcancelled : c.cancelled = false)
    (hnone : l.available? = none) : Attended none (l.waitForBuild i d) := by
  have hstand : BuildsStand l (l.waitForBuild i d) := by
    intro b sb hb
    obtain ⟨sb', hsb', ho, -, hwaiters⟩ := waitForBuild_keeps i d hb
    exact ⟨sb', hsb', hwaiters, .inl ho⟩
  rcases hcur : l.current with _ | n
  · rw [waitForBuild_fresh hcur] at hstand ⊢
    exact h.joins hc hcancelled rfl (fun t ht => List.mem_append_left _ ht) hstand
      ⟨{ waiters := [i] }, by simp [setCaller], by simp, rfl⟩
  · have hlt := hcurrent n hcur
    have hb : l.builds[n]? = some l.builds[n] := List.getElem?_eq_getElem hlt
    have hlive : l.builds[n].outcome? = none := by
      unfold available? at hnone
      split at hnone
      · simp at hnone
      · simpa [hcur, hb] using hnone
    rw [waitForBuild_current hcur] at hstand ⊢
    exact h.joins hc hcancelled rfl (fun t ht => ht) hstand
      ⟨{ l.builds[n] with waiters := l.builds[n].waiters ++ [i] },
        by simp [setCaller, hb], by simp, hlive⟩

theorem callerTurn (h : Attended (some i) l) (hshares : ∀ c ∈ l.callers, c.Shares)
    (hcurrent : ∀ b, l.current = some b → b < l.builds.length) :
    Attended none (l.callerTurn settings f i) := by
  refine callerTurn_rule f hshares ?_ ?_ ?_
  · exact fun hrests => h.rests hrests
  · exact fun _ r _ => h.endCaller r
  · exact fun _ d hc _ hcancelled hnone => h.waitForBuild hcurrent hc hcancelled hnone

/-! ## Everything else -/

/-- Callers are attended to as long as no turn of theirs and no settling is lost. -/
theorem carry {l' : EventLoop σ} (h : Attended none l) (hcallers : l'.callers = l.callers)
    (hqueue : ∀ t ∈ l.queue, t.build? = none → t ∈ l'.queue) (hbuilds : BuildsStand l l') :
    Attended none l' where
  waiting j c b d hc hs := by
    rw [hcallers] at hc
    obtain ⟨hfalse, sb, hsb, hmem, hsettle⟩ := h.waiting j c b d hc hs
    obtain ⟨sb', hsb', hwaiters, ho⟩ := hbuilds b sb hsb
    refine ⟨hfalse, sb', hsb', hwaiters j hmem, fun hne => ?_⟩
    rcases ho with ho | hin
    · exact hqueue _ (hsettle (ho ▸ hne)) rfl
    · exact hin
  due j c _ hc hdue := by
    rw [hcallers] at hc
    exact hqueue _ (h.due j c (by simp) hc hdue) rfl

theorem tell (h : Attended none l) (i : Nat) (d : Demand) (o : Except Failure Transform) :
    Attended none (l.tell i d o) where
  waiting j c b d' hc hs := by
    simp only [EventLoop.tell, enqueue, setCaller, List.getElem?_modify] at hc
    by_cases hij : i = j
    · obtain ⟨c', -, rfl⟩ := Option.map_eq_some_iff.mp hc
      simp [hij] at hs
    · simp only [hij, if_false] at hc
      obtain ⟨hfalse, sb, hsb, hmem, hsettle⟩ := h.waiting j c b d' (by simpa using hc) hs
      exact ⟨hfalse, sb, hsb, hmem, fun ho => List.mem_append_left _ (hsettle ho)⟩
  due j c _ hc hdue := by
    simp only [EventLoop.tell, enqueue, setCaller, List.getElem?_modify] at hc ⊢
    by_cases hij : i = j
    · simp [hij]
    · simp only [hij, if_false] at hc
      exact List.mem_append_left _ (h.due j c (by simp) (by simpa using hc) hdue)

/-- A caller that does not wait may be marked as cancelled. -/
theorem mark (h : Attended none l) {i : Nat} {c : Caller} (hc : l.callers[i]? = some c)
    (hnot : ∀ b d, c.stage ≠ .waiting b d) :
    Attended none
      { l with callers := l.callers.modify i fun c => { c with cancelled := true } } where
  waiting j c' b d hc' hs := by
    simp only [List.getElem?_modify] at hc'
    by_cases hij : i = j
    · subst hij
      simp only [hc, if_true, Option.map_eq_map, Option.map_some, Option.some.injEq] at hc'
      subst hc'
      exact absurd hs (hnot b d)
    · simp only [hij, if_false] at hc'
      exact h.waiting j c' b d (by simpa using hc') hs
  due j c' _ hc' hdue := by
    simp only [List.getElem?_modify] at hc'
    by_cases hij : i = j
    · subst hij
      simp only [hc, if_true, Option.map_eq_map, Option.map_some, Option.some.injEq] at hc'
      subst hc'
      exact h.due i c (by simp) hc hdue
    · simp only [hij, if_false] at hc'
      exact h.due j c' (by simp) (by simpa using hc') hdue

theorem cancel (h : Attended none l) (i : Nat) : Attended none (l.cancel i) := by
  rcases hc : l.callers[i]? with _ | c
  · simpa [EventLoop.cancel, callerStage?, hc] using h
  have hstage : l.callerStage? i = some c.stage := by rw [callerStage?, hc, Option.map_some]
  unfold EventLoop.cancel
  rw [hstage]
  rcases hs : c.stage with _ | r | ⟨b, d⟩ | ⟨d, o⟩ | r
  · exact h.mark hc (by simp [hs])
  · exact h.mark hc (by simp [hs])
  · exact h.tell i d _
  · exact h.mark hc (by simp [hs])
  · exact h

/-- Once a build is settled, nobody waits for it any more. -/
theorem settle (h : Attended none l) {i : Nat} {rest : List Turn}
    (hq : l.queue = .settle i :: rest) :
    Attended none (({ l with queue := rest } : EventLoop σ).settleTurn i) := by
  have hpop : ∀ t ∈ l.queue, t ≠ .settle i → t ∈ rest := by
    intro t ht hne
    rw [hq] at ht
    exact List.mem_of_ne_of_mem hne ht
  rcases ho : l.outcomeOf? i with _ | o
  · -- a build that has not ended is not settled, and nobody counts on it
    have hsame : ({ l with queue := rest } : EventLoop σ).settleTurn i = { l with queue := rest } :=
      settleTurn_none ho
    rw [hsame]
    constructor
    · intro j c b d hc hs
      obtain ⟨hfalse, sb, hsb, hmem, hsettle⟩ := h.waiting j c b d hc hs
      refine ⟨hfalse, sb, hsb, hmem, fun hne => hpop _ (hsettle hne) ?_⟩
      rintro heq
      rw [Turn.settle.injEq] at heq
      rw [outcomeOf?, ← heq, hsb] at ho
      exact hne ho
    · intro j c _ hc hdue
      exact hpop _ (h.due j c (by simp) hc hdue) (by simp)
  · obtain ⟨b, hb, hbo⟩ := Option.bind_eq_some_iff.mp ho
    rw [settleTurn_eq (l := { l with queue := rest }) hb hbo]
    obtain ⟨-, hbuilds, -, -, js, hqueue⟩ := tellAll_frame i o b.waiters
      { l with queue := rest, current := if l.current = some i then none else l.current }
    have hin : ∀ t ∈ l.queue, t ≠ .settle i → t ∈ (tellAll i o b.waiters { l with
        queue := rest, current := if l.current = some i then none else l.current }).queue := by
      intro t ht hne
      rw [hqueue]
      exact List.mem_append_left _ (hpop t ht hne)
    constructor
    · intro j c b' d hc hs
      -- whoever still waits was not told and waits for another build
      have hstill : l.callers[j]? = some c ∧ b' ≠ i := by
        rw [tellAll_callers] at hc
        split at hc
        · obtain ⟨c', hc', rfl⟩ := Option.map_eq_some_iff.mp hc
          rcases Caller.hear_cases i o c' with ⟨hsame, hnot⟩ | ⟨d', -, htold⟩
          · rw [hsame] at hs ⊢
            exact ⟨hc', fun heq => hnot d (heq ▸ hs)⟩
          · rw [htold] at hs
            simp at hs
        · next hnot =>
          refine ⟨hc, fun heq => hnot ?_⟩
          obtain ⟨-, sb, hsb, hmem, -⟩ := h.waiting j c b' d hc hs
          rw [heq, hb, Option.some.injEq] at hsb
          exact hsb ▸ hmem
      obtain ⟨hfalse, sb, hsb, hmem, hsettle⟩ := h.waiting j c b' d hstill.1 hs
      exact ⟨hfalse, sb, by rw [hbuilds]; exact hsb, hmem,
        fun hne => hin _ (hsettle hne) (by simpa using hstill.2)⟩
    · intro j c _ hc hdue
      rw [tellAll_callers] at hc
      split at hc
      · next hmem =>
        obtain ⟨c', hc', rfl⟩ := Option.map_eq_some_iff.mp hc
        rcases Caller.hear_cases i o c' with ⟨hsame, -⟩ | ⟨d, hs, -⟩
        · rw [hsame] at hdue
          exact hin _ (h.due j c' (by simp) hc' hdue) (by simp)
        · exact tellAll_due hmem hc' hs
      · exact hin _ (h.due j c (by simp) hc hdue) (by simp)

/-- A build that has a turn keeps its waiters, and is settled when it ends by it. -/
theorem buildTurn (h : Attended none l) {i : Nat} {rest : List Turn} {b : SharedBuild}
    {l' : EventLoop σ} (hq : l.queue = .build i :: rest) (hb : l.builds[i]? = some b)
    (ho : b.outcome? = none) (hturn : BuildTurn settings f i { l with queue := rest } b l') :
    Attended none l' := by
  obtain ⟨stage, t, hcallers, hbuilds, hqueue, hends, -⟩ := hturn.frame
  refine h.carry hcallers (fun t' ht' hnot => ?_) fun j sb hsb => ?_
  · rw [hqueue]
    rw [hq] at ht'
    refine List.mem_append_left _ (List.mem_of_ne_of_mem ?_ ht')
    rintro rfl
    simp [Turn.build?] at hnot
  · rw [hbuilds, List.getElem?_modify]
    show ∃ sb', _ <$> l.builds[j]? = some sb' ∧ _
    by_cases hij : i = j
    · subst hij
      rw [hb, Option.some.injEq] at hsb
      subst hsb
      refine ⟨{ b with stage }, by simp [hb], fun k hk => hk, ?_⟩
      rcases hends with ⟨hgoes, -⟩ | ⟨-, hsettle⟩
      · exact .inl (hgoes.trans ho.symm)
      · exact .inr (by rw [hqueue, hsettle]; simp)
    · exact ⟨sb, by simp [hij, hsb], fun k hk => hk, .inl rfl⟩

/-! ## Every run -/

theorem newCaller (h : Attended none l) (call : Call) :
    Attended (some l.callers.length)
      { l with callers := l.callers ++ [({ call } : Caller)] } where
  waiting j c b d hc hs := by
    rcases getElem?_concat_cases hc with hold | ⟨-, rfl⟩
    · exact h.waiting j c b d hold hs
    · simp at hs
  due j c hj hc hdue := by
    rcases getElem?_concat_cases hc with hold | ⟨rfl, -⟩
    · exact h.due j c (by simp) hold hdue
    · exact absurd rfl hj

theorem start (h : Attended none l) (call : Call) : Attended none (l.start call) := by
  have hnew := h.newCaller call
  refine ⟨fun j c b d hc hs => ?_, fun j c _ hc hdue => ?_⟩
  · obtain ⟨hfalse, sb, hsb, hmem, hsettle⟩ := hnew.waiting j c b d hc hs
    exact ⟨hfalse, sb, hsb, hmem, fun hne => List.mem_append_left _ (hsettle hne)⟩
  · by_cases hj : l.callers.length = j
    · subst hj
      exact List.mem_append_right _ (List.mem_singleton_self _)
    · exact List.mem_append_left _ (hnew.due j c (by simpa using hj) hc hdue)

/-- A turn leaves everybody attended to. -/
theorem takeTurn (h : Attended none l) (hshares : ∀ c ∈ l.callers, c.Shares)
    (hcurrent : ∀ b, l.current = some b → b < l.builds.length) :
    Attended none (l.takeTurn settings f) := by
  unfold EventLoop.takeTurn
  rcases hq : l.queue with _ | ⟨t, rest⟩
  · exact h
  cases t with
  | caller i => exact (h.popCaller hq).callerTurn hshares hcurrent
  | build i =>
    have hpop : Attended none { l with queue := rest } := by
      refine h.carry rfl (fun t ht hnot => ?_) fun b sb hsb => ⟨sb, hsb, fun j hj => hj, .inl rfl⟩
      rw [hq] at ht
      refine List.mem_of_ne_of_mem ?_ ht
      rintro rfl
      simp [Turn.build?] at hnot
    exact buildTurn_rule (fun _ => hpop) fun b l' hb ho hturn => h.buildTurn hq hb ho hturn
  | settle i => exact h.settle hq

/-- **One deed**: everybody is still attended to. -/
theorem perform (h : Attended none l) (horder : InOrder settings l) {d : Deed σ} (hd : d.Shares) :
    Attended none (EventLoop.perform settings f l d) := by
  cases d with
  | start call => exact h.start call
  | startAtOnce call =>
    exact (h.newCaller call).callerTurn (horder.newCaller hd).callers_share horder.current_lt
  | cancel i => exact h.cancel i
  | reset =>
    obtain ⟨hcallers, hqueue, hbuilds⟩ := reset_frame l
    have hturns : ∀ t ∈ l.queue, t ∈ (EventLoop.perform settings f l .reset).queue := by
      intro t ht
      rw [show EventLoop.perform settings f l .reset = l.reset from rfl, hqueue]
      exact ht
    refine h.carry hcallers (fun t ht _ => hturns t ht) fun b sb hsb => ?_
    obtain ⟨sb', hsb', hw, ho⟩ := hbuilds b sb hsb
    exact ⟨sb', hsb', by rw [hw]; exact fun j hj => hj, .inl ho⟩
  | change g =>
    exact h.carry rfl (fun t ht _ => ht) fun b sb hsb => ⟨sb, hsb, fun j hj => hj, .inl rfl⟩
  | turn => exact h.takeTurn horder.callers_share horder.current_lt

end Attended

/-- **Every run** attends to everybody. -/
theorem run_attended {ds : List (Deed σ)} (hds : ∀ d ∈ ds, d.Shares) {l : EventLoop σ}
    (horder : InOrder settings l) (h : Attended none l) : Attended none (run settings f ds l) :=
  (run_invariant (P := fun l => InOrder settings l ∧ Attended none l)
    (fun _ _ hl hd => ⟨hl.1.perform hd, hl.2.perform hl.1 hd⟩) hds ⟨horder, h⟩).2

end StreamResolver.Cipher.EventLoop
