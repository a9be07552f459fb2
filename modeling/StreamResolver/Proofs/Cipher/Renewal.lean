/-
  What a reset drops stays dropped.

  `Renews` says what a session is after a reset, whatever was in flight when the reset came:

    * as long as no call starts, nothing is asked for and nothing is kept;
    * whatever is asked for, the watch page is asked for first;
    * whatever is kept was read after the reset, or made from a script that was;
    * whoever had no answer when the reset came, and whoever comes later, ends with what was read
      after the reset, or is refused.

  One kind of caller escapes a reset: one that is reading the script on its own account.  Nobody
  cancels it, so it keeps the script that it began to read before, and the calls that come after the
  reset are served with that.  `reset_renews` therefore asks that there is none.

  That nothing is served from before is the invariant of `Accounts`.  That nothing is asked for while
  no call starts is an invariant of its own (`AtRest`): builds that have not ended are cancelled, and
  of the callers in flight none needs anything after what it is told.
-/
import StreamResolver.Proofs.Cipher.Accounts

namespace StreamResolver.Cipher

variable {σ : Type} {settings : Settings} {f : Fetcher σ}

/-! ## What is in flight -/

/-- The call that starts by a deed. -/
def Deed.call? : Deed σ → Option Call
  | .start call | .startAtOnce call => some call
  | _ => none

namespace Caller

/-- Whether a caller goes on reading the script on its own account. -/
def readsOn (c : Caller) : Bool :=
  match c.stage with
  | .reading _ => !c.cancelled
  | _ => false

/-- Whether a caller will start something by itself: its call, or the next demand of its call when
    it has taken the transform that it was told or is about to be told. -/
def starts (settings : Settings) (l : EventLoop σ) (c : Caller) : Bool :=
  match c.stage with
  | .unstarted => !c.cancelled
  | .told d (.ok t) => !c.cancelled && (d.advance settings.param.toList t).isRight
  | .waiting b d =>
    match l.outcomeOf? b with
    | some (.ok t) => (d.advance settings.param.toList t).isRight
    | _ => false
  | _ => false

theorem readsOn_eq {c : Caller} {r : Reading} (hs : c.stage = .reading r) :
    c.readsOn = !c.cancelled := by
  rw [readsOn, hs]

/-- Whoever needs the transform starts something. -/
theorem starts_of_needs {l : EventLoop σ} {c : Caller} {d : Demand} (hd : c.Needs settings d)
    (hlive : c.cancelled = false) : c.starts settings l = true := by
  rcases hd with ⟨hs, -⟩ | ⟨d', t, hs, hadvance⟩
  · simp [starts, hs, hlive]
  · simp [starts, hs, hlive, hadvance]

/-- What a caller starts depends only on the transforms that builds have ended with. -/
theorem starts_of_outcomes {τ : Type} {l : EventLoop σ} {l' : EventLoop τ} {c : Caller}
    (h : ∀ b t, l'.outcomeOf? b = some (.ok t) → l.outcomeOf? b = some (.ok t))
    (hc : c.starts settings l = false) : c.starts settings l' = false := by
  unfold starts at hc ⊢
  split at hc
  · exact hc
  · exact hc
  · next b d _ =>
    rcases ho : l'.outcomeOf? b with _ | e | t
    · rfl
    · rfl
    · simpa [h b t ho] using hc
  · rfl

/-- Whoever is cancelled starts nothing. -/
theorem starts_marked {l : EventLoop σ} {c : Caller} (hc : c.starts settings l = false) :
    ({ c with cancelled := true } : Caller).starts settings l = false := by
  unfold starts at hc ⊢
  split at hc <;> simp_all

end Caller

namespace EventLoop

/-! ## Nothing starts -/

/-- Nothing is asked for, and nothing is going to be. -/
structure AtRest (settings : Settings) (l : EventLoop (Noted σ)) : Prop where
  notes : l.session.world.notes = []
  current : l.current = none
  callers : AllCallers (fun _ c => c.starts settings l = false ∧ c.readsOn = false) l

namespace AtRest

variable {l : EventLoop (Noted σ)}

theorem endCaller (h : AtRest settings l) (i : Nat) (r : Except Failure Reply) :
    AtRest settings (l.endCaller i r) :=
  ⟨h.notes, h.current, h.callers.modify fun _ _ _ => ⟨rfl, rfl⟩⟩

theorem callerTurn (h : AtRest settings l) (i : Nat) :
    AtRest settings (l.callerTurn settings f.noting i) := by
  rcases hc : l.callers[i]? with _ | c
  · rwa [callerTurn_none hc]
  obtain ⟨hstarts, hreads⟩ := h.callers i c hc
  have hstops : ∀ r, c.stage = .reading r → c.cancelled = true := by
    intro r hs
    rw [Caller.readsOn_eq hs] at hreads
    simpa using hreads
  have hturn := callerTurn_does settings f.noting hc
  generalize l.callerTurn settings f.noting i = l' at hturn
  -- whoever would ask for something starts something or reads on
  cases hturn with
  | rests _ => exact h
  | waits d hd hlive _ =>
    rw [Caller.starts_of_needs hd hlive] at hstarts
    simp at hstarts
  | asksForPage _ hs _ hlive _ => simp [Caller.starts, hs, hlive] at hstarts
  | asksForSource _ _ _ _ _ hs hlive _ _ => simp [hstops _ hs] at hlive
  | takesScript _ _ _ _ _ hs hlive _ => simp [hstops _ hs] at hlive
  | refused _ _ _ hs hlive => simp [hstops _ hs] at hlive
  | _ => exact h.endCaller i _

/-- A build that has not ended was cancelled, and ends as such. -/
theorem buildTurn (h : AtRest settings l) (hlive : LiveCurrent l) (i : Nat) :
    AtRest settings (l.buildTurn settings f.noting i) := by
  refine buildTurn_rule (fun _ => h) fun b l' hb ho hturn => ?_
  obtain ⟨s, events, hs, rfl⟩ := hturn.of_cancelled (hlive.cancelled h.current hb ho)
  have hworld : s.world = l.session.world := by rcases hs with rfl | rfl <;> rfl
  -- the turn adds a failure to the outcomes, and no transform
  have houtcomes : ∀ (j : Nat) (t : Transform),
      ({ l with session := s, events }.endBuild i (.error cancellation)).outcomeOf? j =
        some (.ok t) → l.outcomeOf? j = some (.ok t) := by
    intro j t hj
    simp only [outcomeOf?, endBuild, enqueue, setBuild, List.getElem?_modify] at hj
    by_cases hij : i = j
    · subst hij
      simp [hb, SharedBuild.outcome?] at hj
    · simpa [hij, outcomeOf?] using hj
  refine ⟨?_, h.current, fun j c hc => ?_⟩
  · show s.world.notes = []
    rw [hworld, h.notes]
  · obtain ⟨hstarts, hreads⟩ := h.callers j c hc
    exact ⟨Caller.starts_of_outcomes houtcomes hstarts, hreads⟩

theorem settleTurn (h : AtRest settings l) (i : Nat) : AtRest settings (l.settleTurn i) := by
  rcases ho : l.outcomeOf? i with _ | o
  · rwa [settleTurn_none ho]
  obtain ⟨b, hb, hbo⟩ := Option.bind_eq_some_iff.mp ho
  obtain ⟨hsession, hbuilds, hcurrent, -⟩ := tellAll_frame i o b.waiters
    { l with current := if l.current = some i then none else l.current }
  have houtcomes : ∀ (j : Nat) (t : Transform),
      (tellAll i o b.waiters { l with
        current := if l.current = some i then none else l.current }).outcomeOf? j =
          some (.ok t) → l.outcomeOf? j = some (.ok t) := by
    intro j t hj
    rwa [outcomeOf?, hbuilds] at hj
  rw [settleTurn_eq hb hbo]
  refine ⟨by rw [hsession]; exact h.notes, by rw [hcurrent]; simp [h.current], ?_⟩
  refine AllCallers.tellAll
    (l := { l with current := if l.current = some i then none else l.current }) h.callers
    (fun j c hc => ⟨Caller.starts_of_outcomes houtcomes hc.1, hc.2⟩) ?_ b.waiters
  -- it is told what it was about to be told
  intro j c d hs hc
  have hstarts := hc.1
  simp only [Caller.starts, hs, ho] at hstarts
  refine ⟨?_, rfl⟩
  cases o with
  | error e => rfl
  | ok t => simp [Caller.starts, hstarts]

theorem cancel (h : AtRest settings l) (i : Nat) : AtRest settings (l.cancel i) := by
  have hmark : AtRest settings
      { l with callers := l.callers.modify i fun c => { c with cancelled := true } } := by
    refine ⟨h.notes, h.current, h.callers.modify fun c _ hc => ⟨Caller.starts_marked hc.1, ?_⟩⟩
    unfold Caller.readsOn
    split <;> rfl
  unfold EventLoop.cancel
  split
  · exact h
  · exact h
  · exact ⟨h.notes, h.current, h.callers.modify fun _ _ _ => ⟨rfl, rfl⟩⟩
  · exact hmark

theorem reset (h : AtRest settings l) : AtRest settings l.reset := by
  rw [reset_none h.current]
  exact ⟨h.notes, rfl, h.callers⟩

/-- **One deed** by which no call starts: nothing is asked for. -/
theorem perform (h : AtRest settings l) (hlive : LiveCurrent l) {d : Deed σ}
    (hd : d.call? = none) : AtRest settings (EventLoop.perform settings f.noting l d.noted) := by
  cases d with
  | start call => simp [Deed.call?] at hd
  | startAtOnce call => simp [Deed.call?] at hd
  | cancel i => exact h.cancel i
  | reset => exact h.reset
  | change g => exact ⟨h.notes, h.current, h.callers⟩
  | turn =>
    rcases hq : l.queue with _ | ⟨t, rest⟩
    · rwa [Deed.noted, perform_turn_nil hq]
    have hpop : AtRest settings { l with queue := rest } := ⟨h.notes, h.current, h.callers⟩
    rw [Deed.noted, perform_turn_cons hq]
    cases t with
    | caller i => exact hpop.callerTurn i
    | build i => exact hpop.buildTurn hlive i
    | settle i => exact hpop.settleTurn i

end AtRest

/-! ## After a reset -/

/-- A reset ends no build, and a new notebook does not either. -/
theorem outcomeOf?_reset (l : EventLoop σ) (b : Nat) :
    l.reset.watched.outcomeOf? b = l.outcomeOf? b :=
  outcomeOf?_of_stagesKept (reset_quiet l).1 b

theorem atRest_reset {l : EventLoop σ} (hstarts : ∀ c ∈ l.callers, c.starts settings l = false)
    (hreads : ∀ c ∈ l.callers, c.readsOn = false) : AtRest settings l.reset.watched where
  notes := rfl
  current := reset_current l
  callers i c hc := by
    have hmem : c ∈ l.callers := by
      rw [← (reset_frame l).1]
      exact List.mem_of_getElem? hc
    refine ⟨Caller.starts_of_outcomes (fun b t hb => ?_) (hstarts c hmem), hreads c hmem⟩
    rwa [outcomeOf?_reset] at hb

/-- **Nothing is asked for** as long as no call starts. -/
theorem run_atRest {l : EventLoop (Noted σ)} (h : AtRest settings l) (hlive : LiveCurrent l)
    {ds : List (Deed σ)} (hds : ∀ d ∈ ds, d.call? = none) :
    AtRest settings (run settings f.noting (ds.map Deed.noted) l) := by
  refine (run_invariant (P := fun l => LiveCurrent l ∧ AtRest settings l)
    (Q := fun d => ∃ d' : Deed σ, d'.call? = none ∧ d = d'.noted) ?_ ?_ ⟨hlive, h⟩).2
  · rintro l _ ⟨hlive, h⟩ ⟨d, hd, rfl⟩
    exact ⟨hlive.go (BuildsGo.perform l d.noted), h.perform hlive hd⟩
  · intro d hd
    obtain ⟨d', hd', rfl⟩ := List.mem_map.mp hd
    exact ⟨d', hds d' hd', rfl⟩

/-- A reset lets nothing pass when nobody is reading the script on its own account. -/
theorem renewed_reset {l : EventLoop σ} (hreads : ∀ c ∈ l.callers, c.readsOn = false) :
    Renewed settings l l.reset.watched where
  begins := by simp [BeginsWithPage, watched, mapWorld, Session.mapWorld, asked]
  cache := by
    rw [show l.reset.watched.session.cache = {} from congrArg Session.cache (reset_quiet l).2]
    exact Cache.madeIn_empty settings _
  builds b build hb hbuild := by
    have hlt := (List.getElem?_eq_some_iff.mp hbuild).1
    rw [show l.reset.watched.builds = l.reset.builds from rfl, length_reset] at hlt
    exact absurd hlt (Nat.not_lt.mpr hb)
  refused b o hb ho := by
    rw [outcomeOf?_reset, (pending_iff.mp hb).2] at ho
    simp at ho
  callers i c hc := by
    have hold : l.callers[i]? = some c := by
      rw [← (reset_frame l).1]
      exact hc
    -- whoever had been told or had ended was not unanswered
    refine ⟨fun r hs => .inl ?_, fun hi b d hs => .inl ?_, fun hi d o hs => ?_, fun hi r hs => ?_⟩
    · have hstops := hreads c (List.mem_of_getElem? hold)
      rw [Caller.readsOn_eq hs] at hstops
      simpa using hstops
    · simpa [Caller.Unanswered, hs] using hi c hold
    · simpa [Caller.Unanswered, hs] using hi c hold
    · simpa [Caller.Unanswered, hs] using hi c hold

/-- What a session is after a reset of `l`. -/
structure Renews (settings : Settings) (f : Fetcher σ) (l : EventLoop σ) : Prop where
  /-- As long as no call starts, nothing is kept and nothing is asked for. -/
  stays_empty : (∀ c ∈ l.callers, c.starts settings l = false) →
    ∀ ds : List (Deed σ), (∀ d ∈ ds, d.call? = none) →
      (run settings f ds l.reset).session.cache = {} ∧ notes settings f ds l.reset = []
  /-- Whatever is asked for, the watch page is asked for first. -/
  page_first : ∀ ds, BeginsWithPage settings (notes settings f ds l.reset)
  /-- Whatever is kept was read after the reset, or made from a script that was. -/
  kept : ∀ ds, (run settings f ds l.reset).session.cache.MadeIn settings
    (notes settings f ds l.reset)
  /-- Whoever had no answer, and whoever comes later, gets nothing that was read before. -/
  served : ∀ ds i c r, l.Unanswered i → (run settings f ds l.reset).callers[i]? = some c →
    c.stage = .ended r → ReplyIn settings (notes settings f ds l.reset) c.call r
  /-- If it needs the script and is not cancelled, the watch page has been asked for again. -/
  asked_again : ∀ ds i c r, l.Unanswered i → (run settings f ds l.reset).callers[i]? = some c →
    c.stage = .ended r → c.call.plain? settings = none → r ≠ .error cancellation →
    (asked (notes settings f ds l.reset)).head? = some settings.watchUrl

/-- **What a reset drops stays dropped**, after any run of any deeds, when nobody is reading the
    script on its own account. -/
theorem reset_renews (settings : Settings) (f : Fetcher σ) (world : σ) (ds : List (Deed σ))
    (hreads : ∀ c ∈ (run settings f ds (fresh world)).callers, c.readsOn = false) :
    Renews settings f (run settings f ds (fresh world)) := by
  have hlive : LiveCurrent (run settings f ds (fresh world)) :=
    run_liveCurrent (liveCurrent_fresh world)
  generalize run settings f ds (fresh world) = l at *
  have hdropped : Dropped l.builds.length l.reset.watched := by
    obtain ⟨hle, hcurrent, hcancelled⟩ := dropped_reset hlive
    exact ⟨hle, hcurrent, hcancelled⟩
  have hrenewed : ∀ ds : List (Deed σ), Renewed settings l
      (run settings f.noting (ds.map Deed.noted) l.reset.watched) :=
    run_renewed (renewed_reset hreads) hdropped
  have hserved : ∀ ds i c r, l.Unanswered i → (run settings f ds l.reset).callers[i]? = some c →
      c.stage = .ended r → ReplyIn settings (notes settings f ds l.reset) c.call r := by
    intro ds i c r hi hc hs
    rw [run_watched] at hc
    exact ((hrenewed ds).callers i c hc).ended hi r hs
  refine ⟨?empty, fun ds => (hrenewed ds).begins, ?kept, hserved, ?again⟩
  case empty =>
    intro hstarts ds hds
    have hrest := run_atRest (f := f) (atRest_reset hstarts hreads)
      (hlive.go (BuildsGo.reset l)) hds
    -- what is kept is made from the notes, and there are none
    have hkept := (hrenewed ds).cache
    rw [hrest.notes] at hkept
    rw [run_watched]
    exact ⟨hkept.empty, hrest.notes⟩
  case kept =>
    intro ds
    rw [run_watched]
    exact (hrenewed ds).cache
  case again =>
    intro ds i c r hi hc hs hneeds hr
    have hasked := (hserved ds i c r hi hc hs).page_asked hneeds hr
    rcases hfirst : asked (notes settings f ds l.reset) with _ | ⟨url, rest⟩
    · simp [hfirst] at hasked
    · have hbegins : BeginsWithPage settings (notes settings f ds l.reset) := (hrenewed ds).begins
      rw [List.head?_cons, hbegins url (by rw [hfirst, List.head?_cons])]

/-- Two callers share a build that is about to read the script. -/
def halfBuilt : List (Deed Pages) :=
  [.start (.decode "ab"), .start .transform, .turn, .turn, .turn, .turn]

/-- A third one that comes after a reset. -/
def afterReset : List (Deed Pages) := .start (.decode "cd") :: List.replicate 10 .turn

/-- After a reset the two are refused, and the third one has the watch page asked for again. -/
theorem reset_renews_halfBuilt :
    Renews sampleSettings Pages.fetcher
        (run sampleSettings Pages.fetcher halfBuilt (fresh samplePages)) ∧
      (∀ c ∈ (run sampleSettings Pages.fetcher halfBuilt (fresh samplePages)).callers,
        c.starts sampleSettings (run sampleSettings Pages.fetcher halfBuilt (fresh samplePages)) =
          false) ∧
      (run sampleSettings Pages.fetcher afterReset
          (run sampleSettings Pages.fetcher halfBuilt (fresh samplePages)).reset).callers.map
        Caller.outcome? =
        [some (.error cancellation), some (.error cancellation), some (.ok (.text "dc"))] ∧
      asked (notes sampleSettings Pages.fetcher afterReset
        (run sampleSettings Pages.fetcher halfBuilt (fresh samplePages)).reset) =
          ["w", "https://h/p"] := by
  refine ⟨reset_renews sampleSettings Pages.fetcher samplePages halfBuilt ?_, ?_, ?_, ?_⟩
  · decide +kernel
  · decide +kernel
  · decide +kernel
  · decide +kernel

/-- A caller reads the script on its own account. -/
def reading : List (Deed Pages) := [.start .script, .turn]

/-- It escapes a reset: the script that it reads is kept, and the next call is served with it though
    the watch page was not asked for again. -/
example :
    (∀ c ∈ (run sampleSettings Pages.fetcher reading (fresh samplePages)).callers,
      c.starts sampleSettings (run sampleSettings Pages.fetcher reading (fresh samplePages)) =
        false) ∧
    (run sampleSettings Pages.fetcher [.turn, .turn]
      (run sampleSettings Pages.fetcher reading (fresh samplePages)).reset).session.cache.script ≠
        none ∧
    asked (notes sampleSettings Pages.fetcher
      ([.turn, .turn, .start (.decode "ab")] ++ List.replicate 4 .turn)
      (run sampleSettings Pages.fetcher reading (fresh samplePages)).reset) = ["https://h/p"] := by
  decide +kernel

end EventLoop

end StreamResolver.Cipher
