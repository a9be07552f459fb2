/-
  After a failed build.

  A build that fails clears what is kept and waits to be settled.  Until then it is still the current
  build: whoever comes to need the transform in that time is refused with its failure.  From its
  settling on everything starts from scratch (`Retries`): whoever comes to need the transform is served
  by a younger build, and unless that one is cancelled it has asked for the watch page, first of all.

  Two invariants carry this.  Since the failure no older build is current and whatever is kept was
  made by a younger one (`SinceFailure`), so whatever a demand finds or waits for is younger.  And a
  build that ended without being cancelled has asked for the watch page (`diary_begun`): nothing is kept
  while it runs, so it cannot end before it has read.
-/
import StreamResolver.Proofs.Cipher.Cache
import StreamResolver.Proofs.Cipher.Dropped
import StreamResolver.Proofs.Cipher.Provenance
import StreamResolver.Proofs.Cipher.SingleFlight

namespace StreamResolver.Cipher.EventLoop

variable {σ : Type} {settings : Settings} {f : Fetcher σ} {l : EventLoop σ}

/-! ## Coming to need the transform -/

/-- The deed by which caller `j` comes to need the transform: a turn of this caller, or its start at
    once. -/
inductive Demands (settings : Settings) (l : EventLoop σ) (j : Nat) (d : Demand) :
    Deed σ → Prop where
  | onTurn (rest : List Turn) (c : Caller) (hq : l.queue = .caller j :: rest)
      (hc : l.callers[j]? = some c) (hlive : c.cancelled = false) (hd : c.Needs settings d) :
      Demands settings l j d .turn
  | atOnce (call : Call) (hj : j = l.callers.length) (hd : call.demand? settings = some d) :
      Demands settings l j d (.startAtOnce call)

theorem Demands.shares {j : Nat} {d : Demand} {x : Deed σ} (h : Demands settings l j d x) :
    x.Shares := by
  cases h with
  | onTurn _ _ _ _ _ _ => trivial
  | atOnce call _ hd =>
    rintro rfl
    simp [Call.demand?] at hd

/-- By such a deed the caller looks for an outcome, and the builds are as they were before it. -/
theorem Demands.perform_eq {j : Nat} {d : Demand} {x : Deed σ} (h : Demands settings l j d x) :
    ∃ l₀ : EventLoop σ, l₀.session = l.session ∧ l₀.builds = l.builds ∧ l₀.current = l.current ∧
      (∃ c, l₀.callers[j]? = some c ∧ c.cancelled = false) ∧
      perform settings f l x = l₀.attend settings j d := by
  cases h with
  | onTurn rest c hq hc hlive hd =>
    refine ⟨{ l with queue := rest }, rfl, rfl, rfl, ⟨c, hc, hlive⟩, ?_⟩
    rw [perform_turn_cons hq]
    show ({ l with queue := rest } : EventLoop σ).callerTurn settings f j = _
    rcases hd with ⟨hs, hd⟩ | ⟨d', t, hs, hd⟩
    · simp only [callerTurn, hc, hs, hlive]
      exact startCall_needy hd
    · exact callerTurn_more (l := { l with queue := rest }) hc hs hlive hd
  | atOnce call hj hd =>
    refine ⟨{ l with callers := l.callers ++ [({ call } : Caller)] }, rfl, rfl, rfl,
      ⟨{ call }, by rw [hj]; exact List.getElem?_concat_length, rfl⟩, ?_⟩
    show callerTurn settings f l.callers.length _ = _
    simp only [callerTurn, List.getElem?_concat_length]
    rw [← hj]
    exact startCall_needy hd

/-! ## Since a failure -/

/-- Build `i` has failed; no older build is current, and what is kept was made by a younger one. -/
structure SinceFailure (i : Nat) (e : Failure) (l : EventLoop σ) : Prop where
  outcome : l.outcomeOf? i = some (.error e)
  current : ∀ b, l.current = some b → i ≤ b
  kept : ∀ t, l.session.cache.transform = some t → ∃ b, i < b ∧ l.outcomeOf? b = some (.ok t)

theorem lt_length_of_outcome {i : Nat} {o : Except Failure Transform}
    (h : l.outcomeOf? i = some o) : i < l.builds.length := by
  obtain ⟨b, hb, -⟩ := Option.bind_eq_some_iff.mp h
  exact (List.getElem?_eq_some_iff.mp hb).1

/-- The turn of a build keeps a transform only as the build's own outcome, and then the build was not
    cancelled. -/
theorem BuildTurn.transform_kept {i : Nat} {l l' : EventLoop σ} {b : SharedBuild} {t : Transform}
    (h : BuildTurn settings f i l b l') (hb : l.builds[i]? = some b)
    (hempty : l.session.cache = {}) (ht : l'.session.cache.transform = some t) :
    l'.outcomeOf? i = some (.ok t) ∧ b.cancelled = false := by
  cases h with
  | neverStarts _ _ => simp [endBuild, enqueue, setBuild, hempty] at ht
  | givesUp _ _ _ _ => simp [endBuild, enqueue, setBuild, Session.clear] at ht
  | asksForPage _ _ _ _ => simp [enqueue, setBuild, hempty] at ht
  | asksForSource _ _ _ _ _ _ _ _ _ => simp [enqueue, setBuild, hempty] at ht
  | succeeds script build w events hc _ _ =>
    refine ⟨?_, hc⟩
    rw [← Option.some.inj ht]
    simp [outcomeOf?, endBuild, enqueue, setBuild, hb, SharedBuild.outcome?]
  | fails _ _ _ _ _ => simp [endBuild, enqueue, setBuild] at ht

/-- **One deed** keeps it so. -/
theorem SinceFailure.perform {i : Nat} {e : Failure} (h : SinceFailure i e l)
    (horder : InOrder settings l) {d : Deed σ} (hd : d.Shares) :
    SinceFailure i e (EventLoop.perform settings f l d) := by
  refine ⟨outcomeOf?_stays horder hd h.outcome, fun b hb => ?_, fun t ht => ?_⟩
  · rcases (BuildsGo.perform l d).current b hb with hold | rfl
    · exact h.current b hold
    · exact Nat.le_of_lt (lt_length_of_outcome h.outcome)
  rcases perform_cases settings f horder hd with
    ⟨j, rest, b, -, -, hb, ho, hturn⟩ | ⟨-, hkept, hsession⟩
  · obtain ⟨hended, hlive⟩ := hturn.transform_kept hb (horder.pending_empty j ⟨b, hb, ho⟩) ht
    -- the build that succeeds was the current one, and it is not the one that has failed
    have hle : i ≤ j := h.current j (horder.live_current j b hb ho hlive)
    have hne : i ≠ j := by
      rintro rfl
      have houtcome := h.outcome
      rw [outcomeOf?, hb, Option.bind_some, ho] at houtcome
      simp at houtcome
    exact ⟨j, Nat.lt_of_le_of_ne hle hne, hended⟩
  · have hold : l.session.cache.transform = some t := by
      rw [hsession] at ht
      cases d with
      | reset => simp [Deed.onSession, Session.clear] at ht
      | _ => exact ht
    obtain ⟨b, hib, hb⟩ := h.kept t hold
    exact ⟨b, hib, by rw [outcomeOf?_of_stagesKept hkept, hb]⟩

/-- **Every run** keeps it so. -/
theorem run_sinceFailure {i : Nat} {e : Failure} {ds : List (Deed σ)} (hds : ∀ d ∈ ds, d.Shares)
    (horder : InOrder settings l) (h : SinceFailure i e l) :
    SinceFailure i e (run settings f ds l) := by
  have hrun := run_invariant (f := f) (P := fun l => InOrder settings l ∧ SinceFailure i e l)
    (fun _ _ hl hd => ⟨hl.1.perform hd, hl.2.perform hl.1 hd⟩) hds ⟨horder, h⟩
  exact hrun.2

/-- By the deed by which a build fails that was not cancelled. -/
theorem sinceFailure_of_failure {i : Nat} {e : Failure} (horder : InOrder settings l) {x : Deed σ}
    (hx : x.Shares) (hi : l.InFlight i)
    (he : (perform settings f l x).outcomeOf? i = some (.error e)) :
    SinceFailure i e (perform settings f l x) := by
  obtain ⟨b, hb, ho, hlive⟩ := hi
  refine ⟨he, fun j hj => ?_, fun t ht => ?_⟩
  · rcases (BuildsGo.perform l x).current j hj with hold | rfl
    · rw [horder.live_current i b hb ho hlive, Option.some.injEq] at hold
      exact Nat.le_of_eq hold
    · exact Nat.le_of_lt (List.getElem?_eq_some_iff.mp hb).1
  · have hempty := horder.empty_of_failure hx (by rw [outcomeOf?, hb, Option.bind_some, ho]) he
    simp [hempty] at ht

/-! ## Until the failure is settled -/

/-- What a demand finds does not depend on callers and turns. -/
theorem available?_congr {l₀ : EventLoop σ} (hsession : l₀.session = l.session)
    (hbuilds : l₀.builds = l.builds) (hcurrent : l₀.current = l.current) :
    l₀.available? = l.available? := by
  simp only [available?, hsession, hbuilds, hcurrent]

/-- Whoever comes to need the transform while the failed build is current is refused. -/
theorem SinceFailure.refuses {i : Nat} {e : Failure} (h : SinceFailure i e l)
    (horder : InOrder settings l) (hcur : l.current = some i) {j : Nat} {d : Demand} {x : Deed σ}
    (hx : Demands settings l j d x) :
    ∃ c, (EventLoop.perform settings f l x).callers[j]? = some c ∧ c.stage = .ended (.error e) := by
  obtain ⟨l₀, hsession, hbuilds, hcurrent, ⟨c, hc, -⟩, heq⟩ := hx.perform_eq (f := f)
  have havailable : l₀.available? = some (.error e) := by
    rw [available?_congr hsession hbuilds hcurrent, horder.available hcur, h.outcome]
  rw [heq, attend, havailable]
  exact endCaller_stage hc _

/-- Turns are only lined up behind those that stand in the queue. -/
theorem turn_queue (t : Turn) (l : EventLoop σ) : l.queue <+: (turn settings f l t).queue := by
  have hturn : turn settings f (behind l.queue { l with queue := [] }) t =
      behind l.queue (turn settings f { l with queue := [] } t) := turn_behind _ _ _
  rw [show behind l.queue { l with queue := [] } = l by simp [behind]] at hturn
  rw [hturn]
  exact List.prefix_append _ _

theorem perform_queue {x : Deed σ} (hx : x ≠ .turn) :
    l.queue <+: (perform settings f l x).queue := by
  cases x with
  | turn => exact absurd rfl hx
  | start call => exact List.prefix_append _ _
  | startAtOnce call =>
    exact turn_queue (.caller l.callers.length)
      { l with callers := l.callers ++ [({ call } : Caller)] }
  | cancel i =>
    show l.queue <+: (l.cancel i).queue
    unfold cancel
    split
    · exact List.prefix_refl _
    · exact List.prefix_refl _
    · exact List.prefix_append _ _
    · exact List.prefix_refl _
  | reset =>
    show l.queue <+: l.reset.queue
    simp only [(reset_frame l).2.1, List.prefix_refl]
  | change g => exact List.prefix_refl _

/-- After so many turns build `i` is not current any more: if it is, its settling stands among the
    first so many turns. -/
def SettledWithin (n i : Nat) (l : EventLoop σ) : Prop :=
  l.current = some i → .settle i ∈ l.queue.take n

theorem settleTurn_current {i : Nat} {o : Except Failure Transform}
    (ho : l.outcomeOf? i = some o) : (l.settleTurn i).current ≠ some i := by
  obtain ⟨b, hb, hbo⟩ := Option.bind_eq_some_iff.mp ho
  rw [settleTurn_eq hb hbo, (tellAll_frame i o b.waiters _).2.2.1]
  by_cases hcur : l.current = some i <;> simp [hcur]

/-- A build that has ended does not become current again. -/
theorem was_current {i : Nat} {o : Except Failure Transform} {x : Deed σ}
    (ho : l.outcomeOf? i = some o) (hcur : (perform settings f l x).current = some i) :
    l.current = some i := by
  rcases (BuildsGo.perform l x).current i hcur with hold | rfl
  · exact hold
  · exact absurd (lt_length_of_outcome ho) (Nat.lt_irrefl _)

theorem SettledWithin.perform {n i : Nat} {o : Except Failure Transform} {x : Deed σ}
    (h : SettledWithin n i l) (ho : l.outcomeOf? i = some o) (hx : x ≠ .turn) :
    SettledWithin n i (EventLoop.perform settings f l x) := by
  intro hcur
  obtain ⟨ts, hts⟩ : l.queue <+: (EventLoop.perform settings f l x).queue := perform_queue hx
  rw [← hts, List.take_append]
  exact List.mem_append_left _ (h (was_current ho hcur))

theorem SettledWithin.takeTurn {n i : Nat} {o : Except Failure Transform}
    (h : SettledWithin (n + 1) i l) (ho : l.outcomeOf? i = some o) :
    SettledWithin n i (EventLoop.perform settings f l .turn) := by
  intro hcur
  have hmem := h (was_current ho hcur)
  rcases hq : l.queue with _ | ⟨t, rest⟩
  · simp [hq] at hmem
  rw [perform_turn_cons hq] at hcur ⊢
  rw [hq, List.take_succ_cons] at hmem
  rcases List.mem_cons.mp hmem with rfl | hmem
  · exact absurd hcur (settleTurn_current (l := { l with queue := rest }) ho)
  · obtain ⟨ts, hts⟩ : rest <+: (turn settings f { l with queue := rest } t).queue :=
      turn_queue t { l with queue := rest }
    rw [← hts, List.take_append]
    exact List.mem_append_left _ hmem

/-- **A failure is settled** once the turns are taken that stood in the queue. -/
theorem run_settled {n i : Nat} {o : Except Failure Transform} {ds : List (Deed σ)}
    (hds : ∀ d ∈ ds, d.Shares) (horder : InOrder settings l) (ho : l.outcomeOf? i = some o)
    (h : SettledWithin n i l) (hturns : (List.replicate n Deed.turn).Sublist ds) :
    (run settings f ds l).current ≠ some i := by
  induction ds generalizing n l with
  | nil =>
    intro hcur
    have hmem := h hcur
    have hn : n = 0 := by simpa using hturns
    simp [hn] at hmem
  | cons x ds ih =>
    have hshares := List.forall_mem_cons.mp hds
    have hnext := horder.perform (f := f) hshares.1
    have hended := outcomeOf?_stays (f := f) horder hshares.1 ho
    rw [run_cons]
    by_cases hx : x = .turn
    · subst hx
      rcases n with _ | n
      · have hgone : SettledWithin 0 i (EventLoop.perform settings f l .turn) := by
          intro hcur
          simpa using h (was_current ho hcur)
        exact ih hshares.2 hnext hended hgone (List.nil_sublist _)
      · rw [List.replicate_succ, List.cons_sublist_cons] at hturns
        exact ih hshares.2 hnext hended (h.takeTurn ho) hturns
    · refine ih hshares.2 hnext hended (h.perform ho hx) ?_
      rcases List.sublist_cons_iff.mp hturns with hrest | ⟨ts, hts, -⟩
      · exact hrest
      · rcases n with _ | n
        · simp at hts
        · rw [List.replicate_succ, List.cons.injEq] at hts
          exact absurd hts.1.symm hx

/-- The deed by which a build ends is a turn of this build. -/
theorem ending_turn {i : Nat} {o : Except Failure Transform} (horder : InOrder settings l)
    {x : Deed σ} (hx : x.Shares) (hi : l.Pending i)
    (ho : (perform settings f l x).outcomeOf? i = some o) :
    ∃ rest b, l.builds[i]? = some b ∧
      BuildTurn settings f i { l with queue := rest } b (perform settings f l x) := by
  have hnone := (pending_iff.mp hi).2
  rcases perform_cases settings f horder hx with ⟨j, rest, b, -, -, hb, -, hturn⟩ | ⟨-, hkept, -⟩
  · by_cases hij : i = j
    · exact ⟨rest, b, hij ▸ hb, hij ▸ hturn⟩
    · obtain ⟨stage, -, -, hothers⟩ := hturn.stages hb
      rw [outcomeOf?_eq, hothers i hij, ← outcomeOf?_eq] at ho
      rw [show ({ l with queue := rest } : EventLoop σ).outcomeOf? i = none from hnone] at ho
      simp at ho
  · rw [outcomeOf?_of_stagesKept hkept, hnone] at ho
    simp at ho

/-- The deed by which a build ends lines up its settling. -/
theorem settledWithin_of_ending {i : Nat} {o : Except Failure Transform} (horder : InOrder settings l)
    {x : Deed σ} (hx : x.Shares) (hi : l.Pending i)
    (ho : (perform settings f l x).outcomeOf? i = some o) :
    SettledWithin (perform settings f l x).queue.length i (perform settings f l x) := by
  intro _
  obtain ⟨rest, b, hb, hturn⟩ := ending_turn horder hx hi ho
  obtain ⟨stage, t, -, hbuilds, hqueue, hsettle, -⟩ := hturn.frame
  rw [List.take_length, hqueue]
  refine List.mem_append_right _ ?_
  rcases hsettle with ⟨hgoesOn, -⟩ | ⟨-, rfl⟩
  · simp [outcomeOf?, hbuilds, hb, hgoesOn] at ho
  · exact List.mem_singleton_self _

/-! ## What a build asks for -/

theorem Fits.begins {r : Reading} {ns : List Note} (h : Fits settings (some (.reading r)) ns) :
    (asked ns).head? = some settings.watchUrl := by
  cases r with
  | page =>
    rw [show ns = [.asked settings.watchUrl] from h]
    rfl
  | source url =>
    obtain ⟨page, -, rfl⟩ := h
    rfl

theorem head?_asked_append {url : String} {ns : List Note} (ns' : List Note)
    (h : (asked ns).head? = some url) : (asked (ns ++ ns')).head? = some url := by
  rw [asked_append, List.head?_append, h]
  rfl

/-- A build that ends without being cancelled was reading: nothing was kept from which it could have
    built at once. -/
theorem BuildTurn.was_reading {i : Nat} {l l' : EventLoop σ} {b : SharedBuild}
    {o : Except Failure Transform} (h : BuildTurn settings f i l b l')
    (hb : l.builds[i]? = some b) (hempty : l.session.cache = {})
    (ho : l'.outcomeOf? i = some o) (hlive : o ≠ .error cancellation) :
    ∃ r, b.stage = .reading r := by
  cases h with
  | neverStarts _ _ =>
    simp [outcomeOf?, endBuild, enqueue, setBuild, hb, SharedBuild.outcome?] at ho
    exact absurd ho.symm hlive
  | givesUp r _ hs _ => exact ⟨r, hs⟩
  | asksForPage _ _ _ _ =>
    simp [outcomeOf?, enqueue, setBuild, hb, SharedBuild.outcome?] at ho
  | asksForSource _ _ _ _ _ hs _ _ _ => exact ⟨.page, hs⟩
  | succeeds script _ _ _ _ hscript _ =>
    rcases hscript with ⟨-, hkept, -⟩ | ⟨hs, -⟩
    · simp [hempty] at hkept
    · exact ⟨_, hs⟩
  | fails _ _ _ _ hw =>
    rcases hw with ⟨-, ⟨script, hkept⟩, -⟩ | ⟨r, hs, -⟩
    · simp [hempty] at hkept
    · exact ⟨r, hs⟩

/-- Every build that has ended without being cancelled has asked for the watch page first. -/
def Begun (settings : Settings) (l : EventLoop (Noted σ)) (past : Nat → List Note) : Prop :=
  ∀ i o, l.outcomeOf? i = some o → o ≠ .error cancellation →
    (asked (past i)).head? = some settings.watchUrl

/-- **One deed**: a build that ends by it had begun by asking for the watch page. -/
theorem perform_begun {l : EventLoop (Noted σ)} (h : InOrder settings l) {d : Deed (Noted σ)}
    (hd : d.Shares) {past : Nat → List Note}
    (hpast : ∀ i, Fits settings (l.buildStage? i) (past i)) (hbegun : Begun settings l past)
    (new : Nat → List Note) :
    Begun settings (perform settings f.noting l d) fun i => past i ++ new i := by
  intro i o ho hlive
  refine head?_asked_append _ ?_
  rcases hold : l.outcomeOf? i with _ | o'
  · by_cases hexists : (l.builds[i]?).isSome
    · have hi : l.Pending i := pending_iff.mpr ⟨hexists, hold⟩
      obtain ⟨rest, b, hb, hturn⟩ := ending_turn h hd hi ho
      obtain ⟨r, hs⟩ := hturn.was_reading hb (h.pending_empty i hi) ho hlive
      have hfits := hpast i
      rw [buildStage?, hb, Option.map_some, hs] at hfits
      exact hfits.begins
    · -- a build that has just been started has not ended
      rcases perform_cases settings f.noting h hd with
        ⟨j, rest, b, -, -, hb, -, hturn⟩ | ⟨-, hkept, -⟩
      · obtain ⟨stage, -, hlength, -⟩ := hturn.stages hb
        have hlt := lt_length_of_outcome ho
        rw [hlength] at hlt
        simp [List.getElem?_eq_getElem hlt] at hexists
      · rw [outcomeOf?_of_stagesKept hkept, hold] at ho
        simp at ho
  · exact hbegun i o' hold (by
      have hstays := outcomeOf?_stays (f := f.noting) h hd hold
      rw [ho, Option.some.injEq] at hstays
      rwa [← hstays])

/-- **The diary of a run**: a build that has ended without being cancelled has asked for the watch
    page, first of all. -/
theorem diary_begun {ds : List (Deed σ)} (hds : ∀ d ∈ ds, d.Shares) (world : σ) {i : Nat}
    {o : Except Failure Transform}
    (ho : (run settings f ds (fresh world)).outcomeOf? i = some o) (hlive : o ≠ .error cancellation) :
    (asked (notesOf i (diary settings f ds (fresh ⟨world, []⟩)))).head? =
      some settings.watchUrl := by
  have hbegun := diary_rule (f := f)
    (P := fun l past => InOrder settings l ∧ (∀ i, Fits settings (l.buildStage? i) (past i)) ∧
      Begun settings l past)
    (fun l d past hl hd => ⟨hl.1.perform (Deed.noted_shares hd), (perform_fits hl.1 hd hl.2.1).2,
      perform_begun hl.1 (Deed.noted_shares hd) hl.2.1 hl.2.2 _⟩)
    hds ⟨inOrder_fresh settings ⟨world, []⟩, fits_fresh world, by simp [Begun, outcomeOf?, fresh]⟩
  refine hbegun.2.2 i o ?_ hlive
  rw [show fresh world = (fresh (⟨world, []⟩ : Noted σ)).mapWorld Noted.world from rfl,
    run_noting] at ho
  exact ho

/-! ## Served by a younger build -/

/-- A caller for whom nothing is there waits for the current build, or for the one that it starts. -/
theorem attend_waits {j : Nat} {d : Demand} {c : Caller} (hc : l.callers[j]? = some c)
    (hnone : l.available? = none) (steady : Prop) :
    Served settings j (l.current.getD l.builds.length) d steady (attend settings j d l) := by
  rw [attend, hnone]
  refine .waits { c with stage := .waiting (l.current.getD l.builds.length) d } ?_ rfl
    fun _ => waitForBuild_makesCurrent l j d
  rcases hl : l.current with _ | b
  · rw [waitForBuild_fresh hl]
    simp [setCaller, hc]
  · rw [waitForBuild_current hl]
    simp [setCaller, hc]

/-- A caller for whom the outcome of a build is there ends with what it gives. -/
theorem attend_takes {j b : Nat} {d : Demand} {c : Caller} {o : Except Failure Transform}
    (hc : l.callers[j]? = some c) (havailable : l.available? = some o)
    (ho : l.outcomeOf? b = some o) (steady : Prop) :
    Served settings j b d steady (attend settings j d l) := by
  have hended : ∀ r, (l.endCaller j r).outcomeOf? b = some o := by
    intro r
    rw [← ho]
    simp [outcomeOf?, endCaller, setCaller]
  rw [attend, havailable]
  rcases o with e | t
  · refine .done _ (hended _) (fun r hr => ?_) (by simp)
    rw [show r = .error e from hr]
    exact endCaller_stage hc _
  · refine .done _ (hended _) (fun r hr => ?_) fun t' d' ht hadvance => ?_
    · have hreply : r = .ok (d.complete settings.param.toList t) := by
        rcases hr with ⟨reply, hadvance, rfl⟩ | ⟨-, rfl⟩
        · rw [(Demand.advance_complete t d).1 reply hadvance]
        · rfl
      rw [hreply]
      exact endCaller_stage hc _
    · rw [Except.ok.injEq] at ht
      subst ht
      refine endCaller_pursues hc fun reply hreply => ?_
      rw [Except.ok.injEq] at hreply
      rw [← hreply, ← (Demand.advance_complete t d).2 d' hadvance]
      exact Demand.yields_complete t d'

/-- What is there once the failed build is not current any more is the outcome of a younger one. -/
theorem SinceFailure.available {i : Nat} {e : Failure} (h : SinceFailure i e l)
    (horder : InOrder settings l) (hcur : l.current ≠ some i) {o : Except Failure Transform}
    (havailable : l.available? = some o) : ∃ b, i < b ∧ l.outcomeOf? b = some o := by
  rcases hl : l.current with _ | b
  · rcases ht : l.session.cache.transform with _ | t
    · simp [available?, ht, hl] at havailable
    · simp only [available?, ht, Option.some.injEq] at havailable
      obtain ⟨b, hib, hb⟩ := h.kept t ht
      exact ⟨b, hib, havailable ▸ hb⟩
  · refine ⟨b, Nat.lt_of_le_of_ne (h.current b hl) ?_, by rw [← horder.available hl, havailable]⟩
    rintro rfl
    exact hcur hl

/-- Whoever comes to need the transform once the failed build is not current any more is served by a
    build that had not been started at the failure. -/
theorem SinceFailure.serves {i : Nat} {e : Failure} (h : SinceFailure i e l)
    (horder : InOrder settings l) (hcur : l.current ≠ some i) {j : Nat} {d : Demand} {x : Deed σ}
    (hx : Demands settings l j d x) :
    ∃ b, i < b ∧ ∀ steady, Served settings j b d steady (EventLoop.perform settings f l x) := by
  obtain ⟨l₀, hsession, hbuilds, hcurrent, ⟨c, hc, -⟩, heq⟩ := hx.perform_eq (f := f)
  have hsame := available?_congr hsession hbuilds hcurrent
  rw [heq]
  rcases havailable : l.available? with _ | o
  · refine ⟨l.current.getD l.builds.length, ?_, fun steady => ?_⟩
    · rcases hl : l.current with _ | b
      · exact lt_length_of_outcome h.outcome
      · refine Nat.lt_of_le_of_ne (h.current b hl) ?_
        rintro rfl
        exact hcur hl
    · have hwaits : Served settings j (l₀.current.getD l₀.builds.length) d steady
          (attend settings j d l₀) := attend_waits hc (hsame.trans havailable) steady
      rw [hcurrent, hbuilds] at hwaits
      exact hwaits
  · obtain ⟨b, hib, hb⟩ := h.available horder hcur havailable
    have hb₀ : l₀.outcomeOf? b = some o := by
      rw [← hb, outcomeOf?, outcomeOf?, hbuilds]
    exact ⟨b, hib, attend_takes hc (hsame.trans havailable) hb₀⟩

/-! ## Retrying -/

/-- What becomes of caller `j` when build `b` serves its demand after the deeds so far. -/
structure ServedAnew (settings : Settings) (f : Fetcher σ) (world : σ) (past : List (Deed σ))
    (j : Nat) (d : Demand) (b : Nat) : Prop where
  /-- If nothing but turns happens any more, the caller ends. -/
  ends : ∃ n c r, (run settings f (past ++ List.replicate n .turn) (fresh world)).callers[j]? =
    some c ∧ c.stage = .ended r
  /-- However the run goes on, if the caller is not cancelled it ends with what the outcome of the
      build gives it, and unless the build was cancelled it has asked for the watch page first. -/
  served : ∀ ds c r, (∀ y ∈ ds, Deed.Shares y ∧ y ≠ .cancel j) →
    (run settings f (past ++ ds) (fresh world)).callers[j]? = some c → c.stage = .ended r →
    ∃ o, (run settings f (past ++ ds) (fresh world)).outcomeOf? b = some o ∧
      ServedBy settings d (∀ y ∈ ds, y ≠ .reset) o r ∧
      (o ≠ .error cancellation →
        (asked (notesOf b (diary settings f (past ++ ds) (fresh ⟨world, []⟩)))).head? =
          some settings.watchUrl)

/-- What callers can rely on after the deeds by which build `i` has failed with `e`. -/
structure Retries (settings : Settings) (f : Fetcher σ) (world : σ) (past : List (Deed σ))
    (i : Nat) (e : Failure) : Prop where
  nothing_kept : (run settings f past (fresh world)).session.cache = {}
  /-- As long as the build is current, whoever comes to need the transform is refused. -/
  refused : ∀ ds x j d, (∀ y ∈ ds, Deed.Shares y) →
    (run settings f (past ++ ds) (fresh world)).current = some i →
    Demands settings (run settings f (past ++ ds) (fresh world)) j d x →
    ∃ c, (run settings f (past ++ ds ++ [x]) (fresh world)).callers[j]? = some c ∧
      c.stage = .ended (.error e)
  /-- It is not current any more once the turns are taken that stood in the queue. -/
  settled : ∀ ds, (∀ y ∈ ds, Deed.Shares y) →
    (List.replicate (run settings f past (fresh world)).queue.length Deed.turn).Sublist ds →
    (run settings f (past ++ ds) (fresh world)).current ≠ some i
  /-- From then on, whoever comes to need the transform is served by a build that had not been
      started at the failure. -/
  retried : ∀ ds x j d, (∀ y ∈ ds, Deed.Shares y) →
    (run settings f (past ++ ds) (fresh world)).current ≠ some i →
    Demands settings (run settings f (past ++ ds) (fresh world)) j d x →
    ∃ b, (run settings f past (fresh world)).builds.length ≤ b ∧
      ServedAnew settings f world (past ++ ds ++ [x]) j d b

/-- A caller that is served is served anew. -/
theorem servedAnew {world : σ} {past : List (Deed σ)} (hpast : ∀ y ∈ past, y.Shares) {j : Nat}
    {d : Demand} {b : Nat}
    (h : ∀ steady, Served settings j b d steady (run settings f past (fresh world))) :
    ServedAnew settings f world past j d b := by
  have horder : InOrder settings (run settings f past (fresh world)) :=
    run_inOrder hpast (inOrder_fresh settings world)
  have hattended : Attended none (run settings f past (fresh world)) :=
    run_attended hpast (inOrder_fresh settings world) (attended_fresh world)
  refine ⟨?ends, ?served⟩
  case ends =>
    obtain ⟨n, hended⟩ := all_callers_end (f := f) horder hattended
    have hserved : Served settings j b d True
        (run settings f (List.replicate n .turn) (run settings f past (fresh world))) := by
      refine run_served (fun y hy => ?_) horder hattended (h True)
      simp [List.eq_of_mem_replicate hy, Deed.Shares]
    obtain ⟨c, hc⟩ : ∃ c, (run settings f (List.replicate n .turn)
        (run settings f past (fresh world))).callers[j]? = some c := by
      rcases hserved with ⟨c, hc, -⟩ | ⟨c, -, hc, -⟩ | ⟨o, -, hdone, -⟩
      · exact ⟨c, hc⟩
      · exact ⟨c, hc⟩
      · rcases o with e | t
        · obtain ⟨c, hc, -⟩ := hdone (.error e) rfl
          exact ⟨c, hc⟩
        · obtain ⟨c, hc, -⟩ := hdone _ (.inr ⟨trivial, rfl⟩)
          exact ⟨c, hc⟩
    obtain ⟨r, hr⟩ := hended c (List.mem_of_getElem? hc)
    exact ⟨n, c, r, by rw [run_append, hc], hr⟩
  case served =>
    intro ds c r hds hc hr
    have hshares : ∀ y ∈ past ++ ds, y.Shares := by
      intro y hy
      rcases List.mem_append.mp hy with hy | hy
      · exact hpast y hy
      · exact (hds y hy).1
    have hserved : Served settings j b d (∀ y ∈ ds, y ≠ .reset)
        (run settings f ds (run settings f past (fresh world))) :=
      run_served (fun y hy => ⟨(hds y hy).1, (hds y hy).2, fun hsteady => hsteady y hy⟩) horder
        hattended (h _)
    rw [← run_append] at hserved
    obtain ⟨o, ho, hserves⟩ := hserved.servedBy hc hr
    exact ⟨o, ho, hserves, diary_begun hshares world ho⟩

/-- **After a failed build everything starts from scratch**, from the moment on at which the failure
    is settled: in every run of deeds by which no caller reads the script itself, and after every
    build that fails and was not cancelled. -/
theorem failed_build_retried (settings : Settings) (f : Fetcher σ) (world : σ) (ds : List (Deed σ))
    (x : Deed σ) (hds : ∀ y ∈ ds, y.Shares) (hx : x.Shares) (i : Nat) (e : Failure)
    (hi : (run settings f ds (fresh world)).InFlight i)
    (he : (run settings f (ds ++ [x]) (fresh world)).outcomeOf? i = some (.error e)) :
    Retries settings f world (ds ++ [x]) i e := by
  have hpast : ∀ y ∈ ds ++ [x], y.Shares := by
    intro y hy
    rcases List.mem_append.mp hy with hy | hy
    · exact hds y hy
    · exact List.mem_singleton.mp hy ▸ hx
  have hbefore : InOrder settings (run settings f ds (fresh world)) :=
    run_inOrder hds (inOrder_fresh settings world)
  have horder : InOrder settings (run settings f (ds ++ [x]) (fresh world)) :=
    run_inOrder hpast (inOrder_fresh settings world)
  have hperform : run settings f (ds ++ [x]) (fresh world) =
      perform settings f (run settings f ds (fresh world)) x := by
    rw [run_append]
    rfl
  obtain ⟨b, hb, ho, hlive⟩ := hi
  rw [hperform] at he
  have hsince := sinceFailure_of_failure hbefore hx ⟨b, hb, ho, hlive⟩ he
  have hsettles := settledWithin_of_ending hbefore hx ⟨b, hb, ho⟩ he
  have hempty := hbefore.empty_of_failure hx (pending_iff.mp ⟨b, hb, ho⟩).2 he
  -- the build that fails is the newest one
  have hnewest : (perform settings f (run settings f ds (fresh world)) x).builds.length =
      i + 1 := by
    obtain ⟨rest, b', hb', hturn⟩ := ending_turn hbefore hx ⟨b, hb, ho⟩ he
    obtain ⟨-, -, hlength, -⟩ := hturn.stages hb'
    rw [hlength]
    exact (hbefore.current_newest i (hbefore.live_current i b hb ho hlive)).symm
  rw [← hperform] at hsince hsettles hempty hnewest
  have hafter : ∀ ds' : List (Deed σ), (∀ y ∈ ds', y.Shares) →
      InOrder settings (run settings f (ds ++ [x] ++ ds') (fresh world)) ∧
        SinceFailure i e (run settings f (ds ++ [x] ++ ds') (fresh world)) := by
    intro ds' hds'
    rw [run_append]
    exact ⟨run_inOrder hds' horder, run_sinceFailure hds' horder hsince⟩
  refine ⟨hempty, ?refused, ?settled, ?retried⟩
  case refused =>
    intro ds' y j d hds' hcur hy
    obtain ⟨horder', hsince'⟩ := hafter ds' hds'
    rw [run_append _ [y]]
    exact hsince'.refuses horder' hcur hy
  case settled =>
    intro ds' hds' hturns
    rw [run_append]
    exact run_settled hds' horder hsince.outcome hsettles hturns
  case retried =>
    intro ds' y j d hds' hcur hy
    obtain ⟨horder', hsince'⟩ := hafter ds' hds'
    obtain ⟨b, hib, hserved⟩ := hsince'.serves (f := f) horder' hcur hy
    refine ⟨b, by rw [hnewest]; exact hib, servedAnew ?_ fun steady => ?_⟩
    · intro z hz
      rcases List.mem_append.mp hz with hz | hz
      · rcases List.mem_append.mp hz with hz | hz
        · exact hpast z hz
        · exact hds' z hz
      · exact List.mem_singleton.mp hz ▸ hy.shares
    · rw [run_append _ [y]]
      exact hserved steady

/-- Pages of which the script is refused once. -/
def flakyPages : Pages := { samplePages with failures := [("https://h/p", 1)] }

/-- A build is about to be refused the script. -/
def beforeRefusal : List (Deed Pages) := [.start .transform, .turn, .turn, .turn]

/-- Two callers that come after the refusal: one before it is settled, and one after that. -/
def afterRefusal : List (Deed Pages) :=
  [.startAtOnce (.decode "ab"), .turn, .startAtOnce (.decode "cd")] ++ List.replicate 8 .turn

/-- The caller that comes before the failure is settled is refused with it, and the other one has the
    watch page asked for again. -/
theorem failed_build_retried_flaky :
    Retries sampleSettings Pages.fetcher flakyPages (beforeRefusal ++ [.turn]) 0
        (.extractor (.unavailable "https://h/p" (some 503) "")) ∧
      (run sampleSettings Pages.fetcher (beforeRefusal ++ [.turn] ++ afterRefusal)
          (fresh flakyPages)).callers.map Caller.outcome? =
        [some (.error (.extractor (.unavailable "https://h/p" (some 503) ""))),
          some (.error (.extractor (.unavailable "https://h/p" (some 503) ""))),
          some (.ok (.text "dc"))] ∧
      asked (notesOf 1 (diary sampleSettings Pages.fetcher
        (beforeRefusal ++ [.turn] ++ afterRefusal) (fresh ⟨flakyPages, []⟩))) =
          ["w", "https://h/p"] := by
  have hshared : ∀ y ∈ beforeRefusal, y.Shares := by simp [beforeRefusal, Deed.Shares]
  have hflying : (run sampleSettings Pages.fetcher beforeRefusal (fresh flakyPages)).InFlight 0 :=
    ⟨{ stage := .reading (.source "https://h/p"), waiters := [0] }, by rfl, rfl, rfl⟩
  refine ⟨failed_build_retried sampleSettings Pages.fetcher flakyPages beforeRefusal .turn hshared
    trivial 0 _ hflying ?_, ?_, ?_⟩
  · decide +kernel
  · decide +kernel
  · decide +kernel

end StreamResolver.Cipher.EventLoop
