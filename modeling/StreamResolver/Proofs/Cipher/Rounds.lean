/-
  What a round leaves behind.

  Callers come together, and whoever started them goes on when all of them have ended, which takes
  two ticks to be known (`gather`).  A build may still go on by then, since all that waited for it may
  have been cancelled.  It is nearly through, though: when the two ticks are over, nothing is on its
  way to anybody (`gather_readings`).  So pages that change between two rounds change between fetches
  (`changesBetweenFetches_round`).

  The crux is that a build begins before those who caused it have ended (`BuildsCome`).  Whoever waits
  for it has just had a turn, and gets the next one behind the first one of the build.  This needs
  that nobody stands in the queue twice (`TurnsOnce`).
-/
import StreamResolver.Proofs.Cipher.KeptScript
import StreamResolver.Proofs.Cipher.Steady

namespace StreamResolver.Cipher

/-- How many turns of a caller of this stage stand in the queue at most. -/
def Caller.turnsDue (c : Caller) : Nat :=
  match c.stage with
  | .unstarted | .reading _ | .told .. => 1
  | .waiting .. | .ended _ => 0

namespace EventLoop

variable {σ : Type} {settings : Settings} {f : Fetcher σ} {text : σ → String → Option String}
  {l l' : EventLoop σ}

/-- How many turns of this caller stand in the queue at most; none of one that has not come. -/
def turnsDue (l : EventLoop σ) (i : Nat) : Nat := ((l.callers[i]?).map Caller.turnsDue).getD 0

theorem turnsDue_eq {i : Nat} {c : Caller} (hc : l.callers[i]? = some c) :
    l.turnsDue i = c.turnsDue := by
  rw [turnsDue, hc]
  rfl

/-! ## Nobody stands in the queue twice -/

/-- Nobody has more turns in the queue than are due. -/
def TurnsOnce (l : EventLoop σ) : Prop := ∀ i, l.queue.count (.caller i) ≤ l.turnsDue i

theorem turnsOnce_fresh (world : σ) : TurnsOnce (fresh world) := by
  intro i
  simp [fresh]

namespace TurnsOnce

/-- Only caller `i` changes, and the turns of the others stand in the queue as before. -/
theorem go (h : TurnsOnce l) (i : Nat)
    (hcallers : ∀ j, j ≠ i → l'.callers[j]? = l.callers[j]?)
    (hqueue : ∀ j, j ≠ i → l'.queue.count (.caller j) ≤ l.queue.count (.caller j))
    (hi : l'.queue.count (.caller i) ≤ l'.turnsDue i) : TurnsOnce l' := by
  intro j
  by_cases hj : j = i
  · exact hj ▸ hi
  · rw [turnsDue, hcallers j hj]
    exact Nat.le_trans (hqueue j hj) (h j)

/-- Turns of builds do not count, and turns may leave the queue. -/
theorem withQueue (h : TurnsOnce l) (hcallers : l'.callers = l.callers)
    (hqueue : ∀ j, l'.queue.count (.caller j) ≤ l.queue.count (.caller j)) : TurnsOnce l' := by
  intro j
  rw [turnsDue, hcallers]
  exact Nat.le_trans (hqueue j) (h j)

/-- The turn of a caller that leaves the queue was the only one. -/
theorem pop (h : TurnsOnce l) {t : Turn} {rest : List Turn} (hq : l.queue = t :: rest) :
    TurnsOnce { l with queue := rest } ∧ ∀ i, t = .caller i → .caller i ∉ rest := by
  refine ⟨h.withQueue rfl fun j => ?_, ?_⟩
  · rw [hq]
    exact List.count_le_count_cons
  · rintro i rfl
    have hi := h i
    have hone : l.turnsDue i ≤ 1 := by
      unfold turnsDue
      rcases l.callers[i]? with _ | ⟨_, _ | _ | _ | _ | _, _⟩ <;> simp [Caller.turnsDue]
    rw [hq, List.count_cons_self] at hi
    exact List.count_eq_zero.mp (by omega)

theorem not_queued (h : TurnsOnce l) {i : Nat} (hi : l.turnsDue i = 0) : .caller i ∉ l.queue :=
  List.count_eq_zero.mp (Nat.le_zero.mp (hi ▸ h i))

/-- A caller goes on that has no turn in the queue. -/
theorem setCaller (h : TurnsOnce l) {i : Nat} (hi : .caller i ∉ l.queue) (stage : CallerStage) :
    TurnsOnce (l.setCaller i stage) := by
  refine h.go i (fun j hj => ?_) (fun _ _ => Nat.le_refl _) ?_
  · simp [EventLoop.setCaller, List.getElem?_modify_ne _ _ (Ne.symm hj)]
  · rw [show (l.setCaller i stage).queue = l.queue from rfl, List.count_eq_zero.mpr hi]
    exact Nat.zero_le _

/-- A caller lines up that is due and has no turn in the queue. -/
theorem enqueue (h : TurnsOnce l) {i : Nat} (hi : .caller i ∉ l.queue) (hdue : 0 < l.turnsDue i) :
    TurnsOnce (l.enqueue (.caller i)) := by
  refine h.go i (fun _ _ => rfl) (fun j hj => ?_) ?_
  · simp [EventLoop.enqueue, List.count_append, Ne.symm hj]
  · rw [show (l.enqueue (.caller i)).queue = l.queue ++ [.caller i] from rfl, List.count_append,
      List.count_eq_zero.mpr hi, List.count_singleton_self, Nat.zero_add]
    exact hdue

theorem linesUp (h : TurnsOnce l) {i : Nat} {c : Caller} {stage : CallerStage}
    (hc : l.callers[i]? = some c) (hi : .caller i ∉ l.queue)
    (hstage : 0 < ({ c with stage } : Caller).turnsDue) :
    TurnsOnce ((l.setCaller i stage).enqueue (.caller i)) := by
  have hc' : (l.setCaller i stage).callers[i]? = some { c with stage } := by
    simp [EventLoop.setCaller, hc]
  exact (h.setCaller hi stage).enqueue hi (turnsDue_eq hc' ▸ hstage)

/-- A caller is told an outcome that waits for it. -/
theorem tell (h : TurnsOnce l) {i b : Nat} {c : Caller} {d d' : Demand}
    {o : Except Failure Transform} (hc : l.callers[i]? = some c) (hs : c.stage = .waiting b d') :
    TurnsOnce (l.tell i d o) :=
  h.linesUp hc (h.not_queued (by rw [turnsDue_eq hc, Caller.turnsDue, hs])) Nat.one_pos

theorem waitForBuild (h : TurnsOnce l) {i : Nat} (hi : .caller i ∉ l.queue) (d : Demand) :
    TurnsOnce (l.waitForBuild i d) := by
  rcases hcur : l.current with _ | n
  · rw [waitForBuild_fresh hcur]
    refine setCaller (l := { l with
      builds := l.builds ++ [({ waiters := [i] } : SharedBuild)]
      current := some l.builds.length
      queue := l.queue ++ [Turn.build l.builds.length] }) (h.withQueue rfl fun j => ?_) ?_ _
    · simp [List.count_append]
    · simpa using hi
  · rw [waitForBuild_current hcur]
    exact setCaller (l := { l with builds := l.builds.modify n fun build =>
      { build with waiters := build.waiters ++ [i] } }) (h.withQueue rfl fun _ => Nat.le_refl _) hi _

/-- A caller has its turn that has none in the queue. -/
theorem callerTurn (h : TurnsOnce l) {i : Nat} (hi : .caller i ∉ l.queue) :
    TurnsOnce (l.callerTurn settings f i) := by
  rcases hc : l.callers[i]? with _ | c
  · rwa [callerTurn_none hc]
  have hturn := callerTurn_does settings f hc
  generalize l.callerTurn settings f i = l' at hturn
  have hsession : ∀ s events, TurnsOnce ({ l with session := s, events } : EventLoop σ) :=
    fun _ _ => h
  cases hturn with
  | rests _ => exact h
  | waits d _ _ _ => exact h.waitForBuild hi d
  | asksForPage _ _ _ _ _ => exact (hsession _ _).linesUp hc hi Nat.one_pos
  | asksForSource _ _ _ _ _ _ _ _ _ => exact (hsession _ _).linesUp hc hi Nat.one_pos
  | takesScript _ _ _ _ _ _ _ _ => exact (hsession _ _).setCaller hi _
  | refused _ _ _ _ _ => exact (hsession _ _).setCaller hi _
  | _ => exact h.setCaller hi _

theorem buildTurn (h : TurnsOnce l) (i : Nat) : TurnsOnce (l.buildTurn settings f i) := by
  refine buildTurn_rule (fun _ => h) fun b l' _ _ hturn => ?_
  obtain ⟨stage, t, hcallers, -, hqueue, hgoes, -⟩ := hturn.frame
  refine h.withQueue hcallers fun j => ?_
  have ht : t ≠ .caller j := by
    rcases hgoes with ⟨-, rfl⟩ | ⟨-, rfl⟩ <;> simp
  simp [hqueue, List.count_append, ht]

theorem tellWaiter (h : TurnsOnce l) (b : Nat) (o : Except Failure Transform) (i : Nat) :
    TurnsOnce (l.tellWaiter b o i) := by
  rcases hc : l.callers[i]? with _ | c
  · simpa [EventLoop.tellWaiter, callerStage?, hc] using h
  · unfold EventLoop.tellWaiter
    rw [callerStage?, hc, Option.map_some]
    rcases hs : c.stage with _ | r | ⟨b', d⟩ | ⟨d, o'⟩ | r <;> try exact h
    show TurnsOnce (if b' = b then _ else _)
    split
    · exact h.tell hc hs
    · exact h

theorem settleTurn (h : TurnsOnce l) (i : Nat) : TurnsOnce (l.settleTurn i) := by
  rcases ho : l.outcomeOf? i with _ | o
  · rwa [settleTurn_none ho]
  obtain ⟨b, hb, hbo⟩ := Option.bind_eq_some_iff.mp ho
  rw [settleTurn_eq hb hbo]
  exact List.foldlRecOn b.waiters (EventLoop.tellWaiter i o) (motive := TurnsOnce)
    (b := { l with current := if l.current = some i then none else l.current }) h
    fun _ h j _ => h.tellWaiter i o j

/-- Somebody new has no turn in the queue yet. -/
theorem newCaller (h : TurnsOnce l) (call : Call) :
    TurnsOnce { l with callers := l.callers ++ [({ call } : Caller)] } ∧
      .caller l.callers.length ∉ l.queue := by
  have hnone : .caller l.callers.length ∉ l.queue := h.not_queued (by simp [turnsDue])
  refine ⟨h.go l.callers.length (fun j hj => ?_) (fun _ _ => Nat.le_refl _) ?_, hnone⟩
  · show (l.callers ++ [_])[j]? = l.callers[j]?
    rcases Nat.lt_or_gt_of_ne hj with hlt | hgt
    · exact List.getElem?_append_left hlt
    · rw [List.getElem?_eq_none (by simp; omega), List.getElem?_eq_none (by omega)]
  · show l.queue.count _ ≤ _
    rw [List.count_eq_zero.mpr hnone]
    exact Nat.zero_le _

theorem start (h : TurnsOnce l) (call : Call) : TurnsOnce (l.start call) := by
  obtain ⟨hnew, hnone⟩ := h.newCaller call
  exact hnew.enqueue hnone (by simp [turnsDue, Caller.turnsDue])

theorem cancel (h : TurnsOnce l) (i : Nat) : TurnsOnce (l.cancel i) := by
  rcases hc : l.callers[i]? with _ | c
  · simpa [EventLoop.cancel, callerStage?, hc] using h
  have hmarked : TurnsOnce
      { l with callers := l.callers.modify i fun c => { c with cancelled := true } } := by
    intro j
    refine Nat.le_trans (h j) (Nat.le_of_eq ?_)
    simp only [turnsDue, List.getElem?_modify]
    by_cases hij : i = j
    · subst hij
      simp [hc, Caller.turnsDue]
    · simp [hij]
  unfold EventLoop.cancel
  rw [callerStage?, hc, Option.map_some]
  rcases hs : c.stage with _ | r | ⟨b, d⟩ | ⟨d, o⟩ | r
  · exact hmarked
  · exact hmarked
  · exact h.tell hc hs
  · exact hmarked
  · exact h

/-- **One deed** lines nobody up twice. -/
theorem perform (h : TurnsOnce l) (d : Deed σ) : TurnsOnce (EventLoop.perform settings f l d) := by
  cases d with
  | start call => exact h.start call
  | startAtOnce call =>
    obtain ⟨hnew, hnone⟩ := h.newCaller call
    exact hnew.callerTurn hnone
  | cancel i => exact h.cancel i
  | reset =>
    obtain ⟨hcallers, hqueue, -⟩ := reset_frame l
    exact h.withQueue hcallers fun j => Nat.le_of_eq (congrArg _ hqueue)
  | change g => exact h
  | turn =>
    rcases hq : l.queue with _ | ⟨t, rest⟩
    · rwa [perform_turn_nil hq]
    rw [perform_turn_cons hq]
    obtain ⟨hpop, hgone⟩ := h.pop hq
    cases t with
    | caller i => exact hpop.callerTurn (hgone i rfl)
    | build i => exact hpop.buildTurn i
    | settle i => exact hpop.settleTurn i

end TurnsOnce

/-! ## A build begins before those who caused it have ended -/

/-- The build has a turn in the queue.  If it has not begun, somebody who has not ended has no turn
    before it.  The turn that is being taken counts for nobody. -/
def Comes (taken : Option Turn) (l : EventLoop σ) (b : Nat) (sb : SharedBuild) : Prop :=
  ∃ before after, l.queue = before ++ .build b :: after ∧
    (sb.stage = .unstarted → ∃ i c, taken ≠ some (.caller i) ∧ l.callers[i]? = some c ∧
      c.outcome? = none ∧ .caller i ∉ before)

/-- So it is for every build that has neither ended nor been cancelled, the one perhaps excepted
    whose turn is being taken. -/
def BuildsCome (taken : Option Turn) (l : EventLoop σ) : Prop :=
  ∀ (b : Nat) (sb : SharedBuild), taken ≠ some (.build b) → l.builds[b]? = some sb →
    sb.outcome? = none → sb.cancelled = false → Comes taken l b sb

theorem buildsCome_fresh (world : σ) : BuildsCome none (fresh world) := by
  intro b sb _ hb
  simp [fresh] at hb

/-- Turns line up behind, and nobody ends whose turn it is not. -/
theorem Comes.go {taken : Option Turn} {b : Nat} {sb sb' : SharedBuild} (h : Comes taken l b sb)
    (hqueue : ∃ ts, l'.queue = l.queue ++ ts)
    (hcallers : ∀ i c, taken ≠ some (.caller i) → l.callers[i]? = some c → c.outcome? = none →
      ∃ c', l'.callers[i]? = some c' ∧ c'.outcome? = none)
    (hstage : sb'.stage = .unstarted → sb.stage = .unstarted) : Comes none l' b sb' := by
  obtain ⟨before, after, hold, hsomebody⟩ := h
  obtain ⟨ts, hqueue⟩ := hqueue
  refine ⟨before, after ++ ts, by rw [hqueue, hold, List.append_assoc]; rfl, fun hs => ?_⟩
  obtain ⟨i, c, hi, hc, ho, hnot⟩ := hsomebody (hstage hs)
  obtain ⟨c', hc', ho'⟩ := hcallers i c hi hc ho
  exact ⟨i, c', by simp, hc', ho', hnot⟩

namespace BuildsCome

/-- The builds stay as they are, up to who waits for them. -/
theorem go {taken : Option Turn} (h : BuildsCome taken l) (htaken : ∀ b, taken ≠ some (.build b))
    (hqueue : ∃ ts, l'.queue = l.queue ++ ts)
    (hcallers : ∀ i c, taken ≠ some (.caller i) → l.callers[i]? = some c → c.outcome? = none →
      ∃ c', l'.callers[i]? = some c' ∧ c'.outcome? = none)
    (hbuilds : ∀ (b : Nat) (sb' : SharedBuild), l'.builds[b]? = some sb' →
      sb'.outcome? = none → sb'.cancelled = false →
      ∃ sb, l.builds[b]? = some sb ∧ sb.stage = sb'.stage ∧ sb.cancelled = false) :
    BuildsCome none l' := by
  intro b sb' _ hb' ho' hc'
  obtain ⟨sb, hb, hs, hc⟩ := hbuilds b sb' hb' ho' hc'
  have ho : sb.outcome? = none := by rwa [SharedBuild.outcome?, hs]
  exact (h b sb (htaken b) hb ho hc).go hqueue hcallers fun hs' => hs.trans hs'

/-- Nothing happens to the builds. -/
theorem keep {taken : Option Turn} (h : BuildsCome taken l) (htaken : ∀ b, taken ≠ some (.build b))
    (hbuilds : l'.builds = l.builds) (hqueue : ∃ ts, l'.queue = l.queue ++ ts)
    (hcallers : ∀ i c, taken ≠ some (.caller i) → l.callers[i]? = some c → c.outcome? = none →
      ∃ c', l'.callers[i]? = some c' ∧ c'.outcome? = none) : BuildsCome none l' :=
  h.go htaken hqueue hcallers fun _ sb hb _ hlive => ⟨sb, hbuilds ▸ hb, rfl, hlive⟩

/-- The foremost turn is taken. -/
theorem pop (h : BuildsCome none l) {t : Turn} {rest : List Turn} (hq : l.queue = t :: rest) :
    BuildsCome (some t) { l with queue := rest } := by
  intro b sb ht hb ho hc
  obtain ⟨before, after, hqueue, hsomebody⟩ := h b sb (by simp) hb ho hc
  rw [hq, List.cons_eq_append_iff] at hqueue
  rcases hqueue with ⟨-, hfirst⟩ | ⟨before, rfl, hrest⟩
  · exact absurd (congrArg some (List.cons.inj hfirst).1.symm) ht
  refine ⟨before, after, hrest, fun hs => ?_⟩
  obtain ⟨i, c, -, hi, hio, hnot⟩ := hsomebody hs
  refine ⟨i, c, fun heq => hnot ?_, hi, hio, fun hin => hnot (List.mem_cons_of_mem _ hin)⟩
  rw [Option.some.inj heq]
  exact List.mem_cons_self

theorem newCaller (h : BuildsCome none l) (call : Call) :
    BuildsCome (some (.caller l.callers.length))
      { l with callers := l.callers ++ [({ call } : Caller)] } := by
  intro b sb _ hb ho hc
  obtain ⟨before, after, hqueue, hsomebody⟩ := h b sb (by simp) hb ho hc
  refine ⟨before, after, hqueue, fun hs => ?_⟩
  obtain ⟨i, c, -, hi, hio, hnot⟩ := hsomebody hs
  have hlt := (List.getElem?_eq_some_iff.mp hi).1
  refine ⟨i, c, ?_, by rwa [List.getElem?_append_left hlt], hio, hnot⟩
  intro heq
  rw [Option.some.injEq, Turn.caller.injEq] at heq
  omega

theorem waitForBuild {i : Nat} {c : Caller} {d : Demand} (h : BuildsCome (some (.caller i)) l)
    (hc : l.callers[i]? = some c) (hi : .caller i ∉ l.queue) :
    BuildsCome none (l.waitForBuild i d) := by
  have hcallers : ∀ j c', some (Turn.caller i) ≠ some (.caller j) → l.callers[j]? = some c' →
      c'.outcome? = none → ∃ c'', (l.waitForBuild i d).callers[j]? = some c'' ∧
        c''.outcome? = none := by
    intro j c' hj hc' ho'
    obtain ⟨b, hmodify⟩ := waitForBuild_callers l i d
    rw [hmodify, List.getElem?_modify_ne _ _ fun hij => hj (by rw [hij])]
    exact ⟨c', hc', ho'⟩
  rcases hcur : l.current with _ | n
  · rw [waitForBuild_fresh hcur] at hcallers ⊢
    intro b sb _ hb ho hlive
    rcases getElem?_concat_cases hb with hold | ⟨rfl, -⟩
    · exact (h b sb (by simp) hold ho hlive).go ⟨_, rfl⟩ hcallers id
    · -- the new build comes behind all who have turns, and its caller has none
      exact ⟨l.queue, [], rfl, fun _ => ⟨i, { c with stage := .waiting l.builds.length d },
        by simp, by simp [setCaller, hc], rfl, hi⟩⟩
  · rw [waitForBuild_current hcur] at hcallers ⊢
    refine h.go (by simp) ⟨[], by simp [setCaller]⟩ hcallers fun b sb' hb' _ hlive => ?_
    simp only [setCaller, List.getElem?_modify] at hb'
    obtain ⟨sb, hb, rfl⟩ := Option.map_eq_some_iff.mp hb'
    refine ⟨sb, hb, ?_⟩
    split at hlive <;> simp_all

theorem callerTurn {i : Nat} (h : BuildsCome (some (.caller i)) l) (hi : .caller i ∉ l.queue) :
    BuildsCome none (l.callerTurn settings f i) := by
  have hmoves : ∀ l' : EventLoop σ, l'.builds = l.builds → (∃ ts, l'.queue = l.queue ++ ts) →
      (∀ j, i ≠ j → l'.callers[j]? = l.callers[j]?) → BuildsCome none l' := by
    intro l' hbuilds hqueue hcallers
    refine h.keep (by simp) hbuilds hqueue fun j c hj hc ho => ⟨c, ?_, ho⟩
    rwa [hcallers j fun hij => hj (by rw [hij])]
  rcases hc : l.callers[i]? with _ | c
  · rw [callerTurn_none hc]
    exact hmoves l rfl ⟨[], by simp⟩ fun _ _ => rfl
  have hturn := callerTurn_does settings f hc
  generalize l.callerTurn settings f i = l' at hturn
  have hmodify : ∀ (g : Caller → Caller) j, i ≠ j → (l.callers.modify i g)[j]? = l.callers[j]? :=
    fun g j hij => List.getElem?_modify_ne _ _ hij
  cases hturn with
  | rests _ => exact hmoves l rfl ⟨[], by simp⟩ fun _ _ => rfl
  | waits d _ _ _ => exact h.waitForBuild hc hi
  | asksForPage _ _ _ _ _ => exact hmoves _ rfl ⟨_, rfl⟩ (hmodify _)
  | asksForSource _ _ _ _ _ _ _ _ _ => exact hmoves _ rfl ⟨_, rfl⟩ (hmodify _)
  | _ => exact hmoves _ rfl ⟨[], (List.append_nil _).symm⟩ (hmodify _)

theorem buildTurn {i : Nat} (h : BuildsCome (some (.build i)) l) :
    BuildsCome none (l.buildTurn settings f i) := by
  refine buildTurn_rule (fun hnot b sb _ hb ho hlive => ?_) fun x l' hx _ hturn => ?_
  · -- the turn is lost on a build that is not there or has ended
    have hbi : some (Turn.build i) ≠ some (.build b) := by
      intro heq
      rw [Option.some.injEq, Turn.build.injEq] at heq
      exact hnot ⟨sb, heq ▸ hb, ho⟩
    exact (h b sb hbi hb ho hlive).go ⟨[], by simp⟩ (fun j c _ hc ho => ⟨c, hc, ho⟩) id
  · obtain ⟨stage, t, hcallers, hbuilds, hqueue, hgoes, hless⟩ := hturn.frame
    intro b sb _ hb ho hlive
    rw [hbuilds] at hb
    rcases InOrder.setStage_cases hx hb with ⟨rfl, rfl⟩ | ⟨hne, hold⟩
    · -- it goes on, so it lines up again, and it has begun by now
      rcases hgoes with ⟨-, rfl⟩ | ⟨hended, -⟩
      · refine ⟨l.queue, [], hqueue, fun hs => ?_⟩
        rw [show stage = .unstarted from hs] at hless
        exact absurd hless (Nat.not_lt.mpr x.stage.turnsLeft_le)
      · exact absurd ho hended
    · have hbi : some (Turn.build i) ≠ some (.build b) := by simpa using Ne.symm hne
      exact (h b sb hbi hold ho hlive).go ⟨_, hqueue⟩
        (fun j c _ hc ho => ⟨c, by rw [hcallers]; exact hc, ho⟩) id

theorem settleTurn {i : Nat} (h : BuildsCome (some (.settle i)) l) :
    BuildsCome none (l.settleTurn i) := by
  rcases ho : l.outcomeOf? i with _ | o
  · rw [settleTurn_none ho]
    exact h.keep (by simp) rfl ⟨[], by simp⟩ fun j c _ hc ho => ⟨c, hc, ho⟩
  obtain ⟨x, hx, hxo⟩ := Option.bind_eq_some_iff.mp ho
  rw [settleTurn_eq hx hxo]
  obtain ⟨-, hbuilds, -, -, js, hqueue⟩ := tellAll_frame i o x.waiters
    { l with current := if l.current = some i then none else l.current }
  refine h.keep (by simp) hbuilds ⟨_, hqueue⟩ fun j c _ hc hco => ?_
  rw [tellAll_callers]
  split
  · -- whoever is told has not ended
    refine ⟨c.hear i o, by simp [hc], ?_⟩
    rcases Caller.hear_cases i o c with ⟨hsame, -⟩ | ⟨d, -, htold⟩
    · rwa [hsame]
    · rw [htold]
      rfl
  · exact ⟨c, hc, hco⟩

theorem cancel (h : BuildsCome none l) (i : Nat) : BuildsCome none (l.cancel i) := by
  have hmodify : ∀ (g : Caller → Caller), (∀ c, c.outcome? = none → (g c).outcome? = none) →
      ∀ j c, none ≠ some (Turn.caller j) → l.callers[j]? = some c → c.outcome? = none →
        ∃ c' : Caller, (l.callers.modify i g)[j]? = some c' ∧ c'.outcome? = none := by
    intro g hg j c _ hc ho
    rw [List.getElem?_modify, hc]
    refine ⟨_, rfl, ?_⟩
    split
    · exact hg c ho
    · exact ho
  unfold EventLoop.cancel
  split
  · exact h
  · exact h
  · exact h.keep (by simp) rfl ⟨_, rfl⟩ (hmodify _ fun _ _ => rfl)
  · exact h.keep (by simp) rfl ⟨[], (List.append_nil _).symm⟩ (hmodify _ fun _ ho => ho)

theorem reset (h : BuildsCome none l) : BuildsCome none l.reset := by
  obtain ⟨hcallers, hqueue, -⟩ := reset_frame l
  refine h.go (by simp) ⟨[], by simp [hqueue]⟩ (fun j c _ hc ho => ⟨c, by rwa [hcallers], ho⟩) ?_
  intro b sb hb ho hlive
  rcases hcur : l.current with _ | n
  · rw [reset_none hcur] at hb
    exact ⟨sb, hb, rfl, hlive⟩
  · rw [reset_some hcur] at hb
    simp only [cancelBuild, List.getElem?_modify] at hb
    obtain ⟨sb', hb', rfl⟩ := Option.map_eq_some_iff.mp hb
    refine ⟨sb', hb', ?_⟩
    split at hlive
    · split at hlive <;> simp_all
    · simp_all

theorem start (h : BuildsCome none l) (call : Call) : BuildsCome none (l.start call) :=
  (h.newCaller call).keep (by simp) rfl ⟨_, rfl⟩ fun _ c _ hc ho => ⟨c, hc, ho⟩

/-- **One deed**: builds come to their turns, and begin before those who caused them have ended. -/
theorem perform (h : BuildsCome none l) (honce : TurnsOnce l) (d : Deed σ) :
    BuildsCome none (EventLoop.perform settings f l d) := by
  cases d with
  | start call => exact h.start call
  | startAtOnce call => exact (h.newCaller call).callerTurn (honce.newCaller call).2
  | cancel i => exact h.cancel i
  | reset => exact h.reset
  | change g => exact h
  | turn =>
    rcases hq : l.queue with _ | ⟨t, rest⟩
    · rwa [perform_turn_nil hq]
    rw [perform_turn_cons hq]
    cases t with
    | caller i => exact (h.pop hq).callerTurn ((honce.pop hq).2 i rfl)
    | build i => exact (h.pop hq).buildTurn
    | settle i => exact (h.pop hq).settleTurn

end BuildsCome

/-- **Every run**, with callers of every kind. -/
theorem run_buildsCome (ds : List (Deed σ)) (hl : TurnsOnce l ∧ BuildsCome none l) :
    TurnsOnce (run settings f ds l) ∧ BuildsCome none (run settings f ds l) :=
  run_invariant (P := fun l => TurnsOnce l ∧ BuildsCome none l) (Q := fun _ => True)
    (fun _ d hl _ => ⟨hl.1.perform d, hl.2.perform hl.1 d⟩) (fun _ _ => trivial) hl

/-! ## When all callers have ended -/

/-- Whatever goes on has at most `k` turns left and one in the queue; it has one more left if its turn
    is among those of a tick that are still to be taken. -/
def TurnsLeft (k : Nat) (ts : List Turn) (l : EventLoop σ) : Prop :=
  ∀ (b : Nat) (sb : SharedBuild), l.builds[b]? = some sb → sb.outcome? = none →
    sb.cancelled = false → (sb.stage.turnsLeft ≤ k ∧ .build b ∈ l.queue) ∨
      (sb.stage.turnsLeft ≤ k + 1 ∧ .build b ∈ ts)

namespace TurnsLeft

/-- A turn that is no build's leaves the builds alone. -/
theorem other {k : Nat} {t : Turn} {ts : List Turn} (h : TurnsLeft k (t :: ts) l)
    (ht : ∀ b, t ≠ .build b) (hbuilds : l'.builds = l.builds)
    (hqueue : ∃ ts', l'.queue = l.queue ++ ts') : TurnsLeft k ts l' := by
  obtain ⟨ts', hqueue⟩ := hqueue
  intro b sb hb ho hlive
  refine (h b sb (hbuilds ▸ hb) ho hlive).imp (fun hin => ⟨hin.1, ?_⟩) fun hin => ⟨hin.1, ?_⟩
  · rw [hqueue]
    exact List.mem_append_left _ hin.2
  · exact List.mem_of_ne_of_mem (Ne.symm (ht b)) hin.2

theorem buildTurn {k i : Nat} {ts : List Turn} (h : TurnsLeft k (.build i :: ts) l) :
    TurnsLeft k ts (l.buildTurn settings f i) := by
  have hothers : ∀ (b : Nat) (sb : SharedBuild), b ≠ i → l.builds[b]? = some sb →
      sb.outcome? = none → sb.cancelled = false →
      (sb.stage.turnsLeft ≤ k ∧ .build b ∈ l.queue) ∨
        (sb.stage.turnsLeft ≤ k + 1 ∧ .build b ∈ ts) := by
    intro b sb hne hb ho hlive
    refine (h b sb hb ho hlive).imp_right fun hin => ⟨hin.1, ?_⟩
    exact List.mem_of_ne_of_mem (by simpa using hne) hin.2
  refine buildTurn_rule (fun hnot b sb hb ho hlive => ?_) fun x l' hx hxo hturn => ?_
  · refine hothers b sb ?_ hb ho hlive
    rintro rfl
    exact hnot ⟨sb, hb, ho⟩
  · obtain ⟨stage, t, -, hbuilds, hqueue, hgoes, hless⟩ := hturn.frame
    intro b sb hb ho hlive
    rw [hbuilds] at hb
    rw [hqueue]
    rcases InOrder.setStage_cases hx hb with ⟨rfl, rfl⟩ | ⟨hne, hold⟩
    · -- it had a turn more before
      rcases hgoes with ⟨-, rfl⟩ | ⟨hended, -⟩
      · refine .inl ⟨?_, List.mem_append_right _ (List.mem_singleton_self _)⟩
        rcases h b x hx hxo hlive with hk | hk
        · exact Nat.le_of_lt (Nat.lt_of_lt_of_le hless hk.1)
        · exact Nat.le_of_lt_succ (Nat.lt_of_lt_of_le hless hk.1)
      · exact absurd ho hended
    · exact (hothers b sb hne hold ho hlive).imp_left fun hin =>
        ⟨hin.1, List.mem_append_left _ hin.2⟩

/-- One turn, when all callers have ended. -/
theorem turn {k : Nat} {t : Turn} {ts : List Turn} (h : TurnsLeft k (t :: ts) l)
    (hended : CallersEnded l) : TurnsLeft k ts (l.turn settings f t) := by
  cases t with
  | caller i =>
    rw [EventLoop.turn, hended.callerTurn i]
    exact h.other (by simp) rfl ⟨[], by simp⟩
  | build i => exact h.buildTurn
  | settle i =>
    refine h.other (by simp) (settleTurn_quiet i l).1 ?_
    rcases ho : l.outcomeOf? i with _ | o
    · exact ⟨[], by rw [EventLoop.turn, settleTurn_none ho, List.append_nil]⟩
    · obtain ⟨x, hx, hxo⟩ := Option.bind_eq_some_iff.mp ho
      rw [EventLoop.turn, settleTurn_eq hx hxo]
      obtain ⟨-, -, -, -, js, hqueue⟩ := tellAll_frame i o x.waiters
        { l with current := if l.current = some i then none else l.current }
      exact ⟨_, hqueue⟩

theorem turns {k : Nat} {ts : List Turn} (h : TurnsLeft k ts l) (hended : CallersEnded l) :
    TurnsLeft k [] (ts.foldl (EventLoop.turn settings f) l) ∧
      CallersEnded (ts.foldl (EventLoop.turn settings f) l) := by
  induction ts generalizing l with
  | nil => exact ⟨h, hended⟩
  | cons t ts ih => exact ih (h.turn hended) (hended.turn t)

/-- **One tick**, when all callers have ended: whatever goes on has a turn less left. -/
theorem tick {k : Nat} (h : TurnsLeft (k + 1) [] l) (hended : CallersEnded l) :
    TurnsLeft k [] (l.tick settings f) ∧ CallersEnded (l.tick settings f) := by
  refine turns (fun b sb hb ho hlive => .inr ?_) hended
  simpa using h b sb hb ho hlive

/-- Nothing is on its way to whoever has no turn left. -/
theorem readings (h : TurnsLeft 0 [] l) (hended : CallersEnded l) : l.readings = [] := by
  refine List.append_eq_nil_iff.mpr
    ⟨List.filterMap_eq_nil_iff.mpr fun c hc => ?_, List.filterMap_eq_nil_iff.mpr fun b hb => ?_⟩
  · obtain ⟨i, hi⟩ := List.mem_iff_getElem?.mp hc
    obtain ⟨r, hr⟩ := hended i c hi
    simp [Caller.reading?, hr]
  · obtain ⟨i, hi⟩ := List.mem_iff_getElem?.mp hb
    unfold SharedBuild.reading?
    split
    · next r hs hlive =>
      have hleft := h i b hi (by simp [SharedBuild.outcome?, hs]) hlive
      rw [hs] at hleft
      have hpos := BuildStage.turnsLeft_reading r
      simp only [List.not_mem_nil, and_false, or_false] at hleft
      omega
    · rfl

end TurnsLeft

/-- When all callers have ended, every build that goes on has begun. -/
theorem BuildsCome.turnsLeft (h : BuildsCome none l) (hended : CallersEnded l) :
    TurnsLeft 2 [] l := by
  intro b sb hb ho hlive
  obtain ⟨before, after, hqueue, hsomebody⟩ := h b sb (by simp) hb ho hlive
  refine .inl ⟨?_, by simp [hqueue]⟩
  rcases hs : sb.stage with _ | r | o
  · obtain ⟨i, c, -, hc, hco, -⟩ := hsomebody hs
    obtain ⟨r, hr⟩ := hended i c hc
    simp [Caller.outcome?, hr] at hco
  · cases r <;> simp [BuildStage.turnsLeft]
  · simp [SharedBuild.outcome?, hs] at ho

/-- **Two ticks after all callers have ended** nothing is on its way, whatever was done before. -/
theorem ticks_readings (hl : TurnsOnce l ∧ BuildsCome none l) (hended : l.allEnded = true) :
    (l.ticks settings f 2).readings = [] := by
  have hcallers : CallersEnded l := fun i c hc => ended_of_allEnded hended (List.mem_of_getElem? hc)
  have hone : TurnsLeft 1 [] (l.tick settings f) ∧ CallersEnded (l.tick settings f) :=
    (hl.2.turnsLeft hcallers).tick hcallers
  have htwo : TurnsLeft 0 [] (l.ticks settings f 2) ∧ CallersEnded (l.ticks settings f 2) :=
    hone.1.tick hone.2
  exact htwo.1.readings htwo.2

/-- One tick would not be enough: a build that lost its only waiter still waits for the script. -/
example :
    (run sampleSettings Pages.fetcher [.start .transform, .turn, .cancel 0, .turn, .turn]
      (fresh samplePages)).allEnded = true ∧
    ((run sampleSettings Pages.fetcher [.start .transform, .turn, .cancel 0, .turn, .turn]
      (fresh samplePages)).tick sampleSettings Pages.fetcher).readings =
        [.source "https://h/p"] := by
  decide +kernel

theorem settleWithin_eq_ticks (settings : Settings) (f : Fetcher σ) (n : Nat) (l : EventLoop σ) :
    ∃ m, l.settleWithin settings f n = l.ticks settings f m := by
  induction n generalizing l with
  | zero => exact ⟨0, rfl⟩
  | succ n ih =>
    rw [settleWithin]
    split
    · exact ⟨0, rfl⟩
    · obtain ⟨m, hm⟩ := ih (l.tick settings f)
      exact ⟨m + 1, hm⟩

theorem settle_eq_ticks (settings : Settings) (f : Fetcher σ) (l : EventLoop σ) :
    ∃ m, l.settle settings f = l.ticks settings f m :=
  settleWithin_eq_ticks settings f l.patience l

/-- Waiting for all callers is a run of turns. -/
theorem gather_eq_run (settings : Settings) (f : Fetcher σ) (l : EventLoop σ) :
    ∃ m, l.gather settings f = run settings f (List.replicate m .turn) l := by
  obtain ⟨m, hm⟩ := settle_eq_ticks settings f l
  obtain ⟨k, hk⟩ := ticks_eq_run settings f (m + 2) l
  exact ⟨k, by rw [gather, hm, ← ticks_add, hk]⟩

/-! ## Rounds -/

/-- **Between rounds nothing is on its way**, whatever was done before. -/
theorem gather_readings (settings : Settings) (f : Fetcher σ) (ds : List (Deed σ)) (world : σ)
    (hended : ((run settings f ds (fresh world)).settle settings f).allEnded = true) :
    ((run settings f ds (fresh world)).gather settings f).readings = [] := by
  refine ticks_readings ?_ hended
  obtain ⟨m, hm⟩ := settle_eq_ticks settings f (run settings f ds (fresh world))
  rw [hm]
  exact ticks_invariant (P := fun l => TurnsOnce l ∧ BuildsCome none l)
    (fun l hl => ⟨hl.1.perform .turn, hl.2.perform hl.1 .turn⟩) m
    (run_buildsCome ds ⟨turnsOnce_fresh world, buildsCome_fresh world⟩)

/-- **Pages that change between rounds change between fetches**: a round of callers may be added, with
    cancellations and resets, and then the pages may change. -/
theorem changesBetweenFetches_round {ds round : List (Deed σ)} {world : σ}
    (hds : ChangesBetweenFetches settings f text ds (fresh world))
    (hround : ∀ d ∈ round, ∀ g, d ≠ .change g)
    (hended : ((run settings f (ds ++ round) (fresh world)).settle settings f).allEnded = true)
    (g : σ → σ) :
    ∃ m, run settings f (ds ++ round ++ List.replicate m .turn) (fresh world) =
        (run settings f (ds ++ round) (fresh world)).gather settings f ∧
      ChangesBetweenFetches settings f text (ds ++ round ++ List.replicate m .turn ++ [.change g])
        (fresh world) := by
  obtain ⟨m, hm⟩ := gather_eq_run settings f (run settings f (ds ++ round) (fresh world))
  have hgather : run settings f (ds ++ round ++ List.replicate m .turn) (fresh world) =
      (run settings f (ds ++ round) (fresh world)).gather settings f := by
    rw [run_append, hm]
  refine ⟨m, hgather, ?_⟩
  have hturns : ∀ d ∈ (List.replicate m .turn : List (Deed σ)), ∀ g, d ≠ .change g := by
    intro d hd g heq
    rw [List.eq_of_mem_replicate hd] at heq
    simp at heq
  refine (changesBetweenFetches_append _ _ _).mpr ⟨(changesBetweenFetches_append _ _ _).mpr
    ⟨(changesBetweenFetches_append _ _ _).mpr
      ⟨hds, changesBetweenFetches_of_unchanged hround _⟩,
      changesBetweenFetches_of_unchanged hturns _⟩, .inl ?_, trivial⟩
  rw [hgather]
  exact gather_readings settings f (ds ++ round) world hended

end EventLoop

end StreamResolver.Cipher
