/-
  Single flight: many callers, one build.

  `SingleFlight` says what the callers of a session can rely on in every state that a run can reach,
  whatever the order of calls, cancellations, resets, failures and page changes was:

    * one build at a time: at most one build is under way that was not cancelled, and while the
      transform is there none is under way and none begins;
    * two texts a build: only builds read, and each asks for the watch page and then for the script
      that the page names, for nothing else and for neither twice;
    * one outcome for all: whoever waits for a build gets an answer, and it is the failure of that
      build, or the transform of that build applied to its own value.

  The parts are proved one by one in the modules that this one builds on; here they are put
  together.
-/
import StreamResolver.Proofs.Cipher.Fetches
import StreamResolver.Proofs.Cipher.Outcome
import StreamResolver.Proofs.Cipher.Progress

namespace StreamResolver.Cipher.EventLoop

variable {σ : Type} {settings : Settings} {f : Fetcher σ}

/-- Whether a build is under way and is not cancelled. -/
def InFlight (l : EventLoop σ) (i : Nat) : Prop :=
  ∃ b, l.builds[i]? = some b ∧ b.outcome? = none ∧ b.cancelled = false

/-- What a caller gets whose demand a build with the given outcome served, when it has ended with
    `r`.  The transform is applied to the value for which the caller waited; if the session was
    steady meanwhile, to all that were left. -/
structure ServedBy (settings : Settings) (d : Demand) (steady : Prop)
    (o : Except Failure Transform) (r : Except Failure Reply) : Prop where
  failure : ∀ e, o = .error e → r = .error e
  last : ∀ t reply, o = .ok t → d.advance settings.param.toList t = .inl reply → r = .ok reply
  more : ∀ t d' reply, o = .ok t → d.advance settings.param.toList t = .inr d' → r = .ok reply →
    d'.Yields settings.param.toList reply
  complete : ∀ t, steady → o = .ok t → r = .ok (d.complete settings.param.toList t)

/-- What callers can rely on after a run over a world that nobody has used. -/
structure SingleFlight (settings : Settings) (f : Fetcher σ) (world : σ) (ds : List (Deed σ)) :
    Prop where
  one_in_flight : ∀ i j, (run settings f ds (fresh world)).InFlight i →
    (run settings f ds (fresh world)).InFlight j → i = j
  /-- While the transform is there, no build is under way, and no deed starts one. -/
  none_while_ready : (run settings f ds (fresh world)).session.isReady = true →
    (∀ i, ¬ (run settings f ds (fresh world)).Pending i) ∧
      ∀ d : Deed σ, d.Shares →
      (perform settings f (run settings f ds (fresh world)) d).builds.length =
        (run settings f ds (fresh world)).builds.length
  /-- The run of which the diary is kept is this one. -/
  diary_kept : run settings f ds (fresh world) =
    (run settings f.noting (ds.map Deed.noted) (fresh ⟨world, []⟩)).mapWorld Noted.world
  /-- Only on turns of builds is anything asked for or read. -/
  only_builds_read : ∀ entry ∈ diary settings f ds (fresh ⟨world, []⟩), entry.2 ≠ [] →
    ∃ i, entry.1 = some (.build i)
  /-- A build asks for the watch page, then for the script that it found there, and for no more. -/
  asks_in_order : ∀ i, asked (notesOf i (diary settings f ds (fresh ⟨world, []⟩))) <+:
    settings.watchUrl ::
      (located? settings (notesOf i (diary settings f ds (fresh ⟨world, []⟩)))).toList
  /-- If nothing but turns happens any more, every caller ends. -/
  callers_end : ∃ n, ∀ c ∈
    (run settings f (List.replicate n .turn) (run settings f ds (fresh world))).callers,
      ∃ r, c.stage = .ended r
  /-- Whoever needs the transform while a build is current and has ended gets its outcome at
      once. -/
  current_serves : ∀ i d b o, (run settings f ds (fresh world)).current = some b →
    (run settings f ds (fresh world)).outcomeOf? b = some o →
    (run settings f ds (fresh world)).attend settings i d =
      (run settings f ds (fresh world)).endCaller i
        (o.map fun t => d.complete settings.param.toList t)
  /-- Whoever waits for a build and is not cancelled is served by this build, however the run goes
      on; all who wait for it by the same outcome. -/
  same_outcome : ∀ b ds', (∀ e ∈ ds', Deed.Shares e) →
    ∀ i c d c' r, (run settings f ds (fresh world)).callers[i]? = some c →
      c.stage = .waiting b d → (∀ e ∈ ds', e ≠ .cancel i) →
      (run settings f ds' (run settings f ds (fresh world))).callers[i]? = some c' →
      c'.stage = .ended r →
      ∃ o, (run settings f ds' (run settings f ds (fresh world))).outcomeOf? b = some o ∧
        ServedBy settings d
          ((run settings f ds (fresh world)).current = some b ∧ ∀ e ∈ ds', e ≠ .reset) o r

theorem InOrder.one_in_flight {l : EventLoop σ} (h : InOrder settings l) {i j : Nat}
    (hi : l.InFlight i) (hj : l.InFlight j) : i = j := by
  obtain ⟨b, hb, ho, hc⟩ := hi
  obtain ⟨b', hb', ho', hc'⟩ := hj
  have hcurrent := h.live_current i b hb ho hc
  rw [h.live_current j b' hb' ho' hc', Option.some.injEq] at hcurrent
  exact hcurrent.symm

theorem InOrder.none_while_ready {l : EventLoop σ} (h : InOrder settings l)
    (hready : l.session.isReady = true) :
    (∀ i, ¬ l.Pending i) ∧ ∀ d : Deed σ, d.Shares →
      (EventLoop.perform settings f l d).builds.length = l.builds.length := by
  have hnone : ∀ i, ¬ l.Pending i := by
    intro i hi
    rw [Session.isReady, h.pending_empty i hi] at hready
    simp at hready
  refine ⟨hnone, fun d hd => ?_⟩
  rcases perform_cases settings f h hd with ⟨i, rest, b, -, -, hb, ho, -⟩ | ⟨-, hkept, -⟩
  · exact absurd ⟨b, hb, ho⟩ (hnone i)
  · exact length_of_stagesKept hkept hready

theorem InOrder.current_serves {l : EventLoop σ} (h : InOrder settings l) (i : Nat) (d : Demand)
    {b : Nat} {o : Except Failure Transform} (hcur : l.current = some b)
    (ho : l.outcomeOf? b = some o) :
    l.attend settings i d = l.endCaller i (o.map fun t => d.complete settings.param.toList t) := by
  rw [attend, h.available hcur, ho]
  cases o <;> rfl

/-- What a caller that is served has got when it has ended. -/
theorem Served.servedBy {l : EventLoop σ} {i b : Nat} {d : Demand} {steady : Prop}
    (h : Served settings i b d steady l) {c : Caller} {r : Except Failure Reply}
    (hc : l.callers[i]? = some c) (hr : c.stage = .ended r) :
    ∃ o, l.outcomeOf? b = some o ∧ ServedBy settings d steady o r := by
  obtain ⟨o, ho, howed, hmore⟩ := h.reply hc hr
  refine ⟨o, ho, ?_, ?_, hmore, ?_⟩
  · rintro e rfl
    exact howed _ rfl
  · rintro t reply rfl hadvance
    exact howed _ (.inl ⟨reply, hadvance, rfl⟩)
  · rintro t hsteady rfl
    exact howed _ (.inr ⟨hsteady, rfl⟩)

/-- What a caller gets that waits for a build, however the run goes on. -/
theorem same_outcome {l : EventLoop σ} (h : InOrder settings l) (hl : Attended none l)
    {b i : Nat} {ds : List (Deed σ)} (hds : ∀ e ∈ ds, e.Shares) (hcancel : ∀ e ∈ ds, e ≠ .cancel i)
    {c c' : Caller} {d : Demand} {r : Except Failure Reply} (hc : l.callers[i]? = some c)
    (hs : c.stage = .waiting b d) (hc' : (run settings f ds l).callers[i]? = some c')
    (hr : c'.stage = .ended r) :
    ∃ o, (run settings f ds l).outcomeOf? b = some o ∧
      ServedBy settings d (l.current = some b ∧ ∀ e ∈ ds, e ≠ .reset) o r := by
  have hwaits : Served settings i b d (l.current = some b ∧ ∀ e ∈ ds, e ≠ .reset) l :=
    .waits c hc hs fun hsteady => hsteady.1
  have hserved := run_served (f := f)
    (fun e he => ⟨hds e he, hcancel e he, fun hsteady => hsteady.2 e he⟩) h hl hwaits
  exact hserved.servedBy hc' hr

/-- **Single flight**, in every state that a run of shared deeds can reach. -/
theorem single_flight (settings : Settings) (f : Fetcher σ) (world : σ) (ds : List (Deed σ))
    (hds : ∀ d ∈ ds, d.Shares) : SingleFlight settings f world ds := by
  have horder : InOrder settings (run settings f ds (fresh world)) :=
    run_inOrder hds (inOrder_fresh settings world)
  have hattended : Attended none (run settings f ds (fresh world)) :=
    run_attended hds (inOrder_fresh settings world) (attended_fresh world)
  have hdiary := diary_fits (f := f) hds (inOrder_fresh settings (⟨world, []⟩ : Noted σ))
    (fits_fresh world)
  exact {
    one_in_flight := fun _ _ => horder.one_in_flight
    none_while_ready := horder.none_while_ready
    diary_kept := run_noting ds (fresh ⟨world, []⟩)
    only_builds_read := hdiary.1
    asks_in_order := fun i => (hdiary.2 i).asked_begins
    callers_end := all_callers_end horder hattended
    current_serves := fun i d _ _ => horder.current_serves i d
    same_outcome := fun _ _ hds' _ _ _ _ _ hc hs hcancel =>
      same_outcome horder hattended hds' hcancel hc hs }

/-- Two callers that come together, and turns until both have ended. -/
def crowd : List (Deed Pages) :=
  [.start (.decode "ab"), .start (.decode "cd")] ++ List.replicate 8 .turn

/-- The two share one build, which reads two texts, and each gets its own value decoded. -/
theorem single_flight_crowd :
    SingleFlight sampleSettings Pages.fetcher samplePages crowd ∧
      asked (notesOf 0 (diary sampleSettings Pages.fetcher crowd (fresh ⟨samplePages, []⟩))) =
        ["w", "https://h/p"] ∧
      (run sampleSettings Pages.fetcher crowd (fresh samplePages)).callers.map Caller.outcome? =
        [some (.ok (.text "ba")), some (.ok (.text "dc"))] := by
  have hshared : ∀ d ∈ crowd, d.Shares := by simp [crowd, Deed.Shares]
  refine ⟨single_flight sampleSettings Pages.fetcher samplePages crowd hshared, ?_, ?_⟩
  · decide +kernel
  · decide +kernel

end StreamResolver.Cipher.EventLoop
