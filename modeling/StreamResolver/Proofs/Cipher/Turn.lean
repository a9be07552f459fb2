/-
  What a turn can do.

  A turn of a build is one of six things: it never started and is cancelled, it is cancelled while
  it reads, it asks for the watch page, it asks for the script that the page names, it succeeds,
  or it fails (`BuildTurn`).  A turn of a caller that does not read the script itself changes
  nothing, ends the caller, or makes it wait for the current build (`CallerTurn`).  Settling a
  build tells its outcome to those who wait for it and to nobody else (`tellAll_callers`).

  `buildTurn_cases` and `callerTurn_cases` say that these are all the things a turn can do;
  invariants are proved from them and do not look into the turns again.
-/
import StreamResolver.Cipher.EventLoop
import StreamResolver.Proofs.Log.Reporting

namespace StreamResolver.Cipher

/-- The URL of the text that is read. -/
def Reading.url (settings : Settings) : Reading → String
  | .page => settings.watchUrl
  | .source url => url

theorem SharedBuild.stage_of_outcome? {b : SharedBuild} {o : Except Failure Transform}
    (h : b.outcome? = some o) : b.stage = .ended o := by
  unfold outcome? at h
  split at h
  · next o' hs => rw [hs, Option.some.inj h]
  · simp at h

/-- Whether a caller has a turn: it has not started, or it was told an outcome. -/
def Caller.IsDue (c : Caller) : Prop := c.stage = .unstarted ∨ ∃ d o, c.stage = .told d o

/-- What a call needs the transform for, if it needs it. -/
def Call.demand? (settings : Settings) : Call → Option Demand
  | .transform => some .transform
  | .decode value => some (.decode value)
  | .decipher url =>
    match Deciphering.start settings.param url with
    | .ok (.inr d) => some (.decipher d)
    | _ => none
  | _ => none

/-- What a caller that is due needs the transform for: its call, or what is left of its demand after
    the transform that it was told. -/
def Caller.Needs (settings : Settings) (c : Caller) (d : Demand) : Prop :=
  (c.stage = .unstarted ∧ c.call.demand? settings = some d) ∨
    ∃ d' t, c.stage = .told d' (.ok t) ∧ d'.advance settings.param.toList t = .inr d

/-- Whether a caller has nothing to do with the script itself. -/
def Caller.Shares (c : Caller) : Prop := c.call ≠ .script ∧ ∀ r, c.stage ≠ .reading r

namespace Caller

/-- The caller once it is told the outcome of the build with the given number. -/
def hear (b : Nat) (o : Except Failure Transform) (c : Caller) : Caller :=
  match c.stage with
  | .waiting b' d => if b' = b then { c with stage := .told d o } else c
  | _ => c

/-- Who waits for the build is told, and for everybody else nothing changes. -/
theorem hear_cases (b : Nat) (o : Except Failure Transform) (c : Caller) :
    (c.hear b o = c ∧ ∀ d, c.stage ≠ .waiting b d) ∨
      ∃ d, c.stage = .waiting b d ∧ c.hear b o = { c with stage := .told d o } := by
  unfold hear
  rcases hs : c.stage with _ | r | ⟨b', d⟩ | ⟨d, o'⟩ | o'
  · exact .inl ⟨rfl, by simp⟩
  · exact .inl ⟨rfl, by simp⟩
  · by_cases hb : b' = b
    · exact .inr ⟨d, by rw [hb], by simp [hb]⟩
    · exact .inl ⟨by simp [hb], by simp [hb]⟩
  · exact .inl ⟨rfl, by simp⟩
  · exact .inl ⟨rfl, by simp⟩

theorem hear_hear (b : Nat) (o : Except Failure Transform) (c : Caller) :
    (c.hear b o).hear b o = c.hear b o := by
  rcases hs : c.stage with _ | r | ⟨b', d⟩ | ⟨d, o'⟩ | o' <;> simp only [hear, hs]
  by_cases hb : b' = b <;> simp [hb, hs]

end Caller

namespace EventLoop

variable {σ : Type} {settings : Settings} {f : Fetcher σ}

/-! ## The steps of a build -/

theorem onWorld_eq {α : Type} {p : Action σ α} {s : Session σ} {r : Except Failure α} {w : σ}
    {events : List Event} (h : p s.world = ⟨r, w, events⟩) :
    Session.onWorld p s = ⟨r, { s with world := w }, events⟩ := by
  simp [Session.onWorld, Action.onPart, h]

theorem askForSource_refused {s : Session σ} {e : Failure} {w : σ} {events : List Event}
    (h : f.deliver settings.watchUrl s.world = ⟨.error e, w, events⟩) :
    Session.askForSource settings f s = ⟨.error e, { s with world := w }, events⟩ := by
  rw [Session.askForSource]
  exact Action.bind_error (onWorld_eq h)

theorem askForSource_nameless {s : Session σ} {page : String} {e : Failure} {w : σ}
    {events events' : List Event}
    (h : f.deliver settings.watchUrl s.world = ⟨.ok page, w, events⟩)
    (hurl : (scriptUrl settings page).result = (.error e, events')) :
    Session.askForSource settings f s =
      ⟨.error e, { s with world := w }, events ++ events'⟩ := by
  have hreport : (Action.ofReporting (scriptUrl settings page) : Action (Session σ) String)
      { s with world := w } = ⟨.error e, { s with world := w }, events'⟩ := by
    simp [Action.ofReporting, hurl]
  rw [Session.askForSource, Action.bind_ok (onWorld_eq h), Action.bind_error hreport]

theorem askForSource_named {s : Session σ} {page url : String} {w : σ} {events events' : List Event}
    (h : f.deliver settings.watchUrl s.world = ⟨.ok page, w, events⟩)
    (hurl : (scriptUrl settings page).result = (.ok url, events')) :
    ∃ events'', Session.askForSource settings f s =
      ⟨.ok url, { s with world := f.request url w }, events''⟩ := by
  have hreport : (Action.ofReporting (scriptUrl settings page) : Action (Session σ) String)
      { s with world := w } = ⟨.ok url, { s with world := w }, events'⟩ := by
    simp [Action.ofReporting, hurl]
  rw [Session.askForSource, Action.bind_ok (onWorld_eq h), Action.bind_ok hreport]
  exact ⟨_, rfl⟩

theorem keepScript_refused {s : Session σ} {url : String} {e : Failure} {w : σ}
    {events : List Event} (h : f.deliver url s.world = ⟨.error e, w, events⟩) :
    Session.keepScript f url s = ⟨.error e, { s with world := w }, events⟩ := by
  rw [Session.keepScript]
  exact Action.bind_error (onWorld_eq h)

theorem keepScript_kept {s : Session σ} {url source : String} {w : σ} {events : List Event}
    (h : f.deliver url s.world = ⟨.ok source, w, events⟩) :
    ∃ events', Session.keepScript f url s =
      ⟨.ok ⟨url, source⟩, ⟨s.cache.withScript ⟨url, source⟩, w⟩, events'⟩ := by
  rw [Session.keepScript, Action.bind_ok (onWorld_eq h)]
  exact ⟨_, rfl⟩

theorem resume_page_refused {s : Session σ} {e : Failure} {w : σ} {events : List Event}
    (h : f.deliver settings.watchUrl s.world = ⟨.error e, w, events⟩) :
    resume settings f .page s = ⟨.error e, { s with world := w }, events⟩ := by
  rw [resume]
  exact Action.bind_error (askForSource_refused h)

theorem resume_page_nameless {s : Session σ} {page : String} {e : Failure} {w : σ}
    {events events' : List Event}
    (h : f.deliver settings.watchUrl s.world = ⟨.ok page, w, events⟩)
    (hurl : (scriptUrl settings page).result = (.error e, events')) :
    resume settings f .page s = ⟨.error e, { s with world := w }, events ++ events'⟩ := by
  rw [resume]
  exact Action.bind_error (askForSource_nameless h hurl)

theorem resume_page_named {s : Session σ} {page url : String} {w : σ} {events events' : List Event}
    (h : f.deliver settings.watchUrl s.world = ⟨.ok page, w, events⟩)
    (hurl : (scriptUrl settings page).result = (.ok url, events')) :
    ∃ events'', resume settings f .page s =
      ⟨.ok (.inr (.source url)), { s with world := f.request url w }, events''⟩ := by
  obtain ⟨events'', hask⟩ := askForSource_named h hurl
  rw [resume, Action.bind_ok hask]
  exact ⟨_, rfl⟩

theorem resume_source_refused {s : Session σ} {url : String} {e : Failure} {w : σ}
    {events : List Event} (h : f.deliver url s.world = ⟨.error e, w, events⟩) :
    resume settings f (.source url) s = ⟨.error e, { s with world := w }, events⟩ := by
  rw [resume]
  exact Action.bind_error (keepScript_refused h)

theorem resume_source_kept (settings : Settings) {s : Session σ} {url source : String} {w : σ}
    {events : List Event}
    (h : f.deliver url s.world = ⟨.ok source, w, events⟩) :
    ∃ events', resume settings f (.source url) s =
      ⟨.ok (.inl ⟨url, source⟩), ⟨s.cache.withScript ⟨url, source⟩, w⟩, events'⟩ := by
  obtain ⟨events', hkeep⟩ := keepScript_kept h
  rw [resume, Action.bind_ok hkeep]
  exact ⟨_, rfl⟩

theorem keepBuild_error {script : Script} {s : Session σ} {e : Failure} {events : List Event}
    (h : (buildFrom settings.patterns script).result = (.error e, events)) :
    Session.keepBuild settings script s = ⟨.error e, s, events⟩ := by
  rw [Session.keepBuild]
  refine Action.bind_error ?_
  simp [Action.ofReporting, h]

theorem keepBuild_ok {script : Script} {s : Session σ} {build : Build} {events : List Event}
    (h : (buildFrom settings.patterns script).result = (.ok build, events)) :
    ∃ events', Session.keepBuild settings script s =
      ⟨.ok build.transform, ⟨s.cache.withBuild build, s.world⟩, events'⟩ := by
  have hreport : (Action.ofReporting (buildFrom settings.patterns script) :
      Action (Session σ) Build) s = ⟨.ok build, s, events⟩ := by
    simp [Action.ofReporting, h]
  rw [Session.keepBuild, Action.bind_ok hreport]
  exact ⟨_, rfl⟩

theorem abandon_state (e : Failure) (s : Session σ) : (Session.abandon e s).state = s.clear := by
  cases e <;> rfl

/-! ## A build's turn -/

/-- What a turn of build `i` can make of the loop. -/
inductive BuildTurn (settings : Settings) (f : Fetcher σ) (i : Nat) (l : EventLoop σ)
    (b : SharedBuild) : EventLoop σ → Prop where
  /-- It is cancelled before it did anything. -/
  | neverStarts (hs : b.stage = .unstarted) (hc : b.cancelled = true) :
      BuildTurn settings f i l b (l.endBuild i (.error cancellation))
  /-- It is cancelled while a text is on its way. -/
  | givesUp (r : Reading) (events : List Event) (hs : b.stage = .reading r)
      (hc : b.cancelled = true) :
      BuildTurn settings f i l b
        ({ l with session := l.session.clear, events }.endBuild i (.error cancellation))
  | asksForPage (events : List Event) (hs : b.stage = .unstarted) (hc : b.cancelled = false)
      (hk : l.session.cache.script = none) :
      BuildTurn settings f i l b
        (({ l with
            session := ⟨l.session.cache, f.request settings.watchUrl l.session.world⟩
            events }.setBuild i (.reading .page)).enqueue (.build i))
  | asksForSource (page url : String) (w : σ) (events events' : List Event)
      (hs : b.stage = .reading .page) (hc : b.cancelled = false)
      (hpage : f.deliver settings.watchUrl l.session.world = ⟨.ok page, w, events'⟩)
      (hurl : (scriptUrl settings page).value = .ok url) :
      BuildTurn settings f i l b
        (({ l with session := ⟨l.session.cache, f.request url w⟩, events }.setBuild i
          (.reading (.source url))).enqueue (.build i))
  /-- It has the script, the one that is kept or the one that has come, and makes the transform. -/
  | succeeds (script : Script) (build : Build) (w : σ) (events : List Event)
      (hc : b.cancelled = false)
      (hscript : (b.stage = .unstarted ∧ l.session.cache.script = some script ∧
          w = l.session.world) ∨
        (b.stage = .reading (.source script.url) ∧
          (f.deliver script.url l.session.world).result = .ok script.source ∧
          w = (f.deliver script.url l.session.world).state))
      (hbuild : (buildFrom settings.patterns script).value = .ok build) :
      BuildTurn settings f i l b
        ({ l with
            session := ⟨⟨some script, some build.symbols, some build.table,
              some build.transform⟩, w⟩
            events }.endBuild i (.ok build.transform))
  | fails (e : Failure) (w : σ) (events : List Event) (hc : b.cancelled = false)
      (hw : (b.stage = .unstarted ∧ (∃ script, l.session.cache.script = some script) ∧
          w = l.session.world) ∨
        ∃ r, b.stage = .reading r ∧ w = (f.deliver (r.url settings) l.session.world).state) :
      BuildTurn settings f i l b
        ({ l with session := ⟨{}, w⟩, events }.endBuild i (.error e))

/-- A build that is cancelled ends as such; all that it may do besides is to clear what is kept. -/
theorem BuildTurn.of_cancelled {i : Nat} {l l' : EventLoop σ} {b : SharedBuild}
    (h : BuildTurn settings f i l b l') (hcancelled : b.cancelled = true) :
    ∃ s events, (s = l.session ∨ s = l.session.clear) ∧
      l' = { l with session := s, events }.endBuild i (.error cancellation) := by
  cases h with
  | neverStarts _ _ => exact ⟨_, _, .inl rfl, rfl⟩
  | givesUp _ events _ _ => exact ⟨_, events, .inr rfl, rfl⟩
  | asksForPage _ _ hc _ => simp [hcancelled] at hc
  | asksForSource _ _ _ _ _ _ hc _ _ => simp [hcancelled] at hc
  | succeeds _ _ _ _ hc _ _ => simp [hcancelled] at hc
  | fails _ _ _ hc _ => simp [hcancelled] at hc

/-- A build that has its script succeeds or fails. -/
theorem finishBuild_cases (settings : Settings) (i : Nat) (script : Script) (l : EventLoop σ) :
    (∃ build events, (buildFrom settings.patterns script).value = .ok build ∧
      l.finishBuild settings i script =
        { l with session := ⟨l.session.cache.withBuild build, l.session.world⟩, events }.endBuild i
          (.ok build.transform)) ∨
    (∃ e events, l.finishBuild settings i script =
      { l with session := ⟨{}, l.session.world⟩, events }.endBuild i (.error e)) := by
  rcases h : (buildFrom settings.patterns script).result with ⟨e | build, events⟩
  · refine .inr ⟨e, l.events ++ events ++ (Session.abandon e l.session).events, ?_⟩
    simp only [finishBuild, act, keepBuild_error h, abandon_state, Session.clear]
  · obtain ⟨events', hkeep⟩ := keepBuild_ok (s := l.session) h
    refine .inl ⟨build, l.events ++ events', by rw [Reporting.value, h], ?_⟩
    simp only [finishBuild, act, hkeep]

theorem buildTurn_none {i : Nat} {l : EventLoop σ} (h : l.builds[i]? = none) :
    l.buildTurn settings f i = l := by
  simp [buildTurn, h]

theorem buildTurn_ended {i : Nat} {l : EventLoop σ} {b : SharedBuild}
    {o : Except Failure Transform} (h : l.builds[i]? = some b) (ho : b.stage = .ended o) :
    l.buildTurn settings f i = l := by
  simp [buildTurn, h, ho]

/-- **A build's turn**: it does one of the six things. -/
theorem buildTurn_cases (settings : Settings) (f : Fetcher σ) {i : Nat} {l : EventLoop σ}
    {b : SharedBuild} (h : l.builds[i]? = some b) (hb : b.outcome? = none) :
    BuildTurn settings f i l b (l.buildTurn settings f i) := by
  unfold buildTurn
  simp only [h]
  rcases hs : b.stage with _ | r | o <;> rcases hc : b.cancelled <;> simp only
  · rcases hk : l.session.cache.script with _ | script <;> simp only
    · exact .asksForPage _ hs hc hk
    · rcases finishBuild_cases settings i script l with
        ⟨build, events, hbuild, heq⟩ | ⟨e, events, heq⟩
      · rw [heq, Cache.withBuild, hk]
        exact .succeeds script build _ events hc (.inl ⟨hs, hk, rfl⟩) hbuild
      · rw [heq]
        exact .fails e _ events hc (.inl ⟨hs, ⟨script, hk⟩, rfl⟩)
  · exact .neverStarts hs hc
  · have hw : ∀ w, w = (f.deliver (r.url settings) l.session.world).state →
        (b.stage = .unstarted ∧ (∃ script, l.session.cache.script = some script) ∧
          w = l.session.world) ∨ ∃ r', b.stage = .reading r' ∧
          w = (f.deliver (r'.url settings) l.session.world).state :=
      fun w hw => .inr ⟨r, hs, hw⟩
    cases r with
    | page =>
      rcases hd : f.deliver settings.watchUrl l.session.world with ⟨e | page, w, ev⟩
      · simp only [act, resume_page_refused hd, abandon_state]
        exact .fails e w _ hc (hw w (by rw [Reading.url, hd]))
      · rcases hu : (scriptUrl settings page).result with ⟨e | url, ev'⟩
        · simp only [act, resume_page_nameless hd hu, abandon_state]
          exact .fails e w _ hc (hw w (by rw [Reading.url, hd]))
        · obtain ⟨ev'', hr⟩ := resume_page_named hd hu
          simp only [act, hr]
          exact .asksForSource page url w _ ev hs hc hd (by rw [Reporting.value, hu])
    | source url =>
      rcases hd : f.deliver url l.session.world with ⟨e | source, w, ev⟩
      · simp only [act, resume_source_refused hd, abandon_state]
        exact .fails e w _ hc (hw w (by rw [Reading.url, hd]))
      · obtain ⟨ev', hr⟩ := resume_source_kept settings hd
        simp only [act, hr]
        have hcases := finishBuild_cases settings i ⟨url, source⟩
          { l with
            session := ⟨l.session.cache.withScript ⟨url, source⟩, w⟩
            events := l.events ++ ev' }
        rcases hcases with ⟨build, events, hbuild, heq⟩ | ⟨e, events, heq⟩
        · rw [heq]
          exact .succeeds ⟨url, source⟩ build w events hc
            (.inr ⟨hs, by rw [hd], by rw [hd]⟩) hbuild
        · rw [heq]
          exact .fails e w events hc (hw w (by rw [Reading.url, hd]))
  · refine .givesUp r (l.events ++ (Session.abandon cancellation l.session).events) hs hc
  · simp [SharedBuild.outcome?, hs] at hb
  · simp [SharedBuild.outcome?, hs] at hb

/-! ## A caller's turn -/

theorem callerTurn_none {i : Nat} {l : EventLoop σ} (h : l.callers[i]? = none) :
    l.callerTurn settings f i = l := by
  simp [callerTurn, h]

theorem callerTurn_ended {i : Nat} {l : EventLoop σ} {c : Caller} {r : Except Failure Reply}
    (h : l.callers[i]? = some c) (hs : c.stage = .ended r) : l.callerTurn settings f i = l := by
  simp [callerTurn, h, hs]

/-- What a turn of caller `i` can make of the loop. -/
inductive CallerTurn (settings : Settings) (i : Nat) (l : EventLoop σ) (c : Caller) :
    EventLoop σ → Prop where
  | rests (h : ¬ c.IsDue) : CallerTurn settings i l c l
  | leaves (r : Except Failure Reply) (hdue : c.IsDue) :
      CallerTurn settings i l c (l.endCaller i r)
  | waits (d : Demand) (hd : c.Needs settings d) (hc : c.cancelled = false)
      (h : l.available? = none) :
      CallerTurn settings i l c (l.waitForBuild i d)

theorem attend_cases {i : Nat} {l : EventLoop σ} {c : Caller} {d : Demand}
    (hd : c.Needs settings d) (hc : c.cancelled = false) :
    CallerTurn settings i l c (l.attend settings i d) := by
  have hdue : c.IsDue := by
    rcases hd with ⟨hs, -⟩ | ⟨d', t, hs, -⟩
    · exact .inl hs
    · exact .inr ⟨d', .ok t, hs⟩
  unfold attend
  rcases h : l.available? with _ | e | t
  · exact .waits d hd hc h
  · exact .leaves _ hdue
  · exact .leaves _ hdue

theorem startCall_cases {i : Nat} {l : EventLoop σ} {c : Caller} (hs : c.stage = .unstarted)
    (hc : c.cancelled = false) (hcall : c.call ≠ .script) :
    CallerTurn settings i l c (l.startCall settings f i c.call) := by
  rcases hcase : c.call with _ | _ | value | url | url
  · exact absurd hcase hcall
  · exact attend_cases (.inl ⟨hs, by simp [hcase, Call.demand?]⟩) hc
  · exact attend_cases (.inl ⟨hs, by simp [hcase, Call.demand?]⟩) hc
  · simp only [startCall]
    rcases hstart : Deciphering.start settings.param url with e | s | d
    · exact .leaves _ (.inl hs)
    · exact .leaves _ (.inl hs)
    · exact attend_cases (.inl ⟨hs, by simp [hcase, Call.demand?, hstart]⟩) hc
  · exact .leaves _ (.inl hs)

/-- **A caller's turn**: it changes nothing, ends the caller or makes it wait. -/
theorem callerTurn_cases (settings : Settings) (f : Fetcher σ) {i : Nat} {l : EventLoop σ}
    {c : Caller} (h : l.callers[i]? = some c) (hc : c.Shares) :
    CallerTurn settings i l c (l.callerTurn settings f i) := by
  unfold callerTurn
  simp only [h]
  rcases hs : c.stage with _ | r | ⟨b, d⟩ | ⟨d, e | t⟩ | o <;> rcases hk : c.cancelled <;> simp only
  · exact startCall_cases hs hk hc.1
  · exact .leaves _ (.inl hs)
  · exact absurd hs (hc.2 r)
  · exact absurd hs (hc.2 r)
  · exact .rests (by simp [Caller.IsDue, hs])
  · exact .rests (by simp [Caller.IsDue, hs])
  · exact .leaves _ (.inr ⟨d, _, hs⟩)
  · exact .leaves _ (.inr ⟨d, _, hs⟩)
  · rcases hd : d.advance settings.param.toList t with reply | d'
    · exact .leaves _ (.inr ⟨d, _, hs⟩)
    · exact attend_cases (.inr ⟨d, t, hs, hd⟩) hk
  · exact .leaves _ (.inr ⟨d, _, hs⟩)
  · exact .rests (by simp [Caller.IsDue, hs])
  · exact .rests (by simp [Caller.IsDue, hs])

/-- **What a caller's turn keeps**: there is no such caller, or it rests, leaves or waits. -/
theorem callerTurn_rule {P : EventLoop σ → Prop} (f : Fetcher σ) {i : Nat} {l : EventLoop σ}
    (h : ∀ c ∈ l.callers, c.Shares)
    (hrests : (∀ c, l.callers[i]? = some c → ¬ c.IsDue) → P l)
    (hleaves : ∀ c r, l.callers[i]? = some c → P (l.endCaller i r))
    (hwaits : ∀ c d, l.callers[i]? = some c → c.Needs settings d → c.cancelled = false →
      l.available? = none → P (l.waitForBuild i d)) :
    P (l.callerTurn settings f i) := by
  rcases hc : l.callers[i]? with _ | c
  · -- nobody is there
    rw [callerTurn_none hc]
    exact hrests fun c hc' => by simp [hc] at hc'
  · have hturn := callerTurn_cases settings f hc (h c (List.mem_of_getElem? hc))
    generalize l.callerTurn settings f i = l' at hturn
    cases hturn with
    | rests hrest =>
      refine hrests fun c' hc' => ?_
      rw [hc, Option.some.injEq] at hc'
      exact hc' ▸ hrest
    | leaves r _ => exact hleaves c r hc
    | waits d hd hlive hnone => exact hwaits c d hc hd hlive hnone

/-! ## A caller that waits -/

theorem waitForBuild_current {i b : Nat} {d : Demand} {l : EventLoop σ} (h : l.current = some b) :
    l.waitForBuild i d =
      { l with builds := l.builds.modify b fun build =>
          { build with waiters := build.waiters ++ [i] } }.setCaller i (.waiting b d) := by
  simp [waitForBuild, currentBuild, h]

theorem waitForBuild_fresh {i : Nat} {d : Demand} {l : EventLoop σ} (h : l.current = none) :
    l.waitForBuild i d =
      { l with
        builds := l.builds ++ [({ waiters := [i] } : SharedBuild)]
        current := some l.builds.length
        queue := l.queue ++ [Turn.build l.builds.length] }.setCaller i
          (.waiting l.builds.length d) := by
  simp [waitForBuild, currentBuild, h, enqueue, List.modify_eq_take_drop]

/-- What stands in a list that got a new last entry. -/
theorem getElem?_concat_cases {α : Type} {xs : List α} {x y : α} {j : Nat}
    (h : (xs ++ [x])[j]? = some y) : xs[j]? = some y ∨ (j = xs.length ∧ y = x) := by
  rw [List.getElem?_append] at h
  split at h
  · exact .inl h
  · have hlt := (List.getElem?_eq_some_iff.mp h).1
    have hmem := List.mem_singleton.mp (List.mem_of_getElem? h)
    simp only [List.length_singleton] at hlt
    exact .inr ⟨by omega, hmem⟩

/-- A caller that waits leaves every build as it was but for those who wait for it, and starts a
    new one if none is current. -/
theorem waitForBuild_builds {i b : Nat} {d : Demand} {l : EventLoop σ} {x : SharedBuild}
    (hx : (l.waitForBuild i d).builds[b]? = some x) :
    (∃ x', l.builds[b]? = some x' ∧ x'.outcome? = x.outcome? ∧ x'.cancelled = x.cancelled) ∨
      (l.current = none ∧ b = l.builds.length ∧ x = { waiters := [i] }) := by
  rcases hcur : l.current with _ | n
  · rw [waitForBuild_fresh hcur] at hx
    rcases getElem?_concat_cases hx with hold | ⟨hb, hnew⟩
    · exact .inl ⟨x, hold, rfl, rfl⟩
    · exact .inr ⟨rfl, hb, hnew⟩
  · rw [waitForBuild_current hcur] at hx
    simp only [setCaller, List.getElem?_modify] at hx
    obtain ⟨x', hx', rfl⟩ := Option.map_eq_some_iff.mp hx
    refine .inl ⟨x', hx', ?_⟩
    split <;> exact ⟨rfl, rfl⟩

theorem waitForBuild_keeps {b : Nat} {l : EventLoop σ} {x : SharedBuild} (i : Nat) (d : Demand)
    (hx : l.builds[b]? = some x) : ∃ x', (l.waitForBuild i d).builds[b]? = some x' ∧
      x'.outcome? = x.outcome? ∧ x'.cancelled = x.cancelled ∧ ∀ j ∈ x.waiters, j ∈ x'.waiters := by
  rcases hcur : l.current with _ | n
  · rw [waitForBuild_fresh hcur]
    refine ⟨x, ?_, rfl, rfl, fun _ hj => hj⟩
    rw [setCaller, List.getElem?_append_left (List.getElem?_eq_some_iff.mp hx).1, hx]
  · rw [waitForBuild_current hcur]
    simp only [setCaller, List.getElem?_modify, hx]
    by_cases hnb : n = b
    · exact ⟨{ x with waiters := x.waiters ++ [i] }, by simp [hnb], rfl, rfl,
        fun _ hj => List.mem_append_left _ hj⟩
    · exact ⟨x, by simp [hnb], rfl, rfl, fun _ hj => hj⟩

/-- The build that a caller waits for is current from then on. -/
theorem waitForBuild_makesCurrent (l : EventLoop σ) (i : Nat) (d : Demand) :
    (l.waitForBuild i d).current = some (l.current.getD l.builds.length) := by
  rcases hcur : l.current with _ | n
  · rw [waitForBuild_fresh hcur]
    rfl
  · rw [waitForBuild_current hcur]
    exact hcur

theorem waitForBuild_callers (l : EventLoop σ) (i : Nat) (d : Demand) :
    ∃ b, (l.waitForBuild i d).callers =
      l.callers.modify i fun c => { c with stage := .waiting b d } := by
  rcases hcur : l.current with _ | n
  · rw [waitForBuild_fresh hcur]
    exact ⟨_, rfl⟩
  · rw [waitForBuild_current hcur]
    exact ⟨n, rfl⟩

theorem waitForBuild_session (l : EventLoop σ) (i : Nat) (d : Demand) :
    (l.waitForBuild i d).session = l.session := by
  rcases hcur : l.current with _ | n
  · rw [waitForBuild_fresh hcur]
    rfl
  · rw [waitForBuild_current hcur]
    rfl

/-! ## A reset -/

theorem reset_none {l : EventLoop σ} (h : l.current = none) :
    l.reset = { l with current := none, session := l.session.clear } := by
  simp [reset, h]

theorem reset_some {l : EventLoop σ} {i : Nat} (h : l.current = some i) :
    l.reset = { l.cancelBuild i with current := none, session := l.session.clear } := by
  simp [reset, h, cancelBuild]

/-! ## Settling -/

/-- Tell the outcome of a build to those of the given callers that wait for it. -/
def tellAll (b : Nat) (o : Except Failure Transform) (is : List Nat) (l : EventLoop σ) :
    EventLoop σ :=
  is.foldl (tellWaiter b o) l

theorem settleTurn_eq {i : Nat} {l : EventLoop σ} {b : SharedBuild} {o : Except Failure Transform}
    (h : l.builds[i]? = some b) (ho : b.outcome? = some o) :
    l.settleTurn i =
      tellAll i o b.waiters
        { l with current := if l.current = some i then none else l.current } := by
  simp [settleTurn, h, ho, tellAll]

/-- Telling touches neither the session nor the builds, and only callers get turns by it. -/
theorem tellAll_frame (b : Nat) (o : Except Failure Transform) (is : List Nat) (l : EventLoop σ) :
    (tellAll b o is l).session = l.session ∧ (tellAll b o is l).builds = l.builds ∧
      (tellAll b o is l).current = l.current ∧
      (tellAll b o is l).callers.length = l.callers.length ∧
      ∃ js : List Nat, (tellAll b o is l).queue = l.queue ++ js.map .caller := by
  induction is generalizing l with
  | nil => exact ⟨rfl, rfl, rfl, rfl, [], by simp [tellAll]⟩
  | cons i is ih =>
    obtain ⟨h1, h2, h3, h4, js, hq⟩ := ih (tellWaiter b o l i)
    have hone : (tellWaiter b o l i).session = l.session ∧ (tellWaiter b o l i).builds = l.builds ∧
        (tellWaiter b o l i).current = l.current ∧
        (tellWaiter b o l i).callers.length = l.callers.length ∧
        ∃ js : List Nat, (tellWaiter b o l i).queue = l.queue ++ js.map .caller := by
      unfold tellWaiter
      split
      · split
        · exact ⟨rfl, rfl, rfl, by simp [tell, enqueue, setCaller], [i], rfl⟩
        · exact ⟨rfl, rfl, rfl, rfl, [], by simp⟩
      · exact ⟨rfl, rfl, rfl, rfl, [], by simp⟩
    obtain ⟨g1, g2, g3, g4, js', gq⟩ := hone
    exact ⟨h1.trans g1, h2.trans g2, h3.trans g3, h4.trans g4, js' ++ js,
      hq.trans (by rw [gq, List.map_append, List.append_assoc])⟩

theorem tellWaiter_callers (b : Nat) (o : Except Failure Transform) (l : EventLoop σ) (i : Nat) :
    (tellWaiter b o l i).callers = l.callers.modify i (Caller.hear b o) := by
  have hsame : ∀ c, l.callers[i]? = some c → c.hear b o = c →
      l.callers.modify i (Caller.hear b o) = l.callers := by
    intro c hc hear
    refine List.ext_getElem? fun j => ?_
    rw [List.getElem?_modify]
    split
    · next hij => subst hij; simp [hc, hear]
    · simp
  unfold tellWaiter callerStage?
  rcases hc : l.callers[i]? with _ | c
  · exact (List.modify_eq_self (by simpa using hc)).symm
  · rcases hs : c.stage with _ | r | ⟨b', d⟩ | ⟨d, o'⟩ | o' <;> simp only [Option.map_some, hs]
    · exact (hsame c hc (by simp [Caller.hear, hs])).symm
    · exact (hsame c hc (by simp [Caller.hear, hs])).symm
    · split
      · next hb =>
        refine List.ext_getElem? fun j => ?_
        simp only [tell, enqueue, setCaller, List.getElem?_modify]
        split
        · next hij => subst hij; simp [hc, Caller.hear, hs, hb]
        · rfl
      · next hb => exact (hsame c hc (by simp [Caller.hear, hs, hb])).symm
    · exact (hsame c hc (by simp [Caller.hear, hs])).symm
    · exact (hsame c hc (by simp [Caller.hear, hs])).symm

/-- Telling reaches exactly the given callers that wait for the build. -/
theorem tellAll_callers (b : Nat) (o : Except Failure Transform) (is : List Nat) (l : EventLoop σ)
    (j : Nat) :
    (tellAll b o is l).callers[j]? =
      if j ∈ is then (l.callers[j]?).map (Caller.hear b o) else l.callers[j]? := by
  induction is generalizing l with
  | nil => simp [tellAll]
  | cons i is ih =>
    have hstep := ih (tellWaiter b o l i)
    rw [tellWaiter_callers, List.getElem?_modify] at hstep
    show (tellAll b o is (tellWaiter b o l i)).callers[j]? = _
    rw [hstep]
    by_cases hij : i = j
    · subst hij
      cases l.callers[i]? with
      | none => simp
      | some c => simp [Caller.hear_hear]
    · have hji : ¬ j = i := fun h => hij h.symm
      simp [hij, hji]

/-- Whoever is told has a turn. -/
theorem tellAll_due {b : Nat} {o : Except Failure Transform} {is : List Nat} {l : EventLoop σ}
    {j : Nat} {c : Caller} {d : Demand} (hj : j ∈ is) (hc : l.callers[j]? = some c)
    (hs : c.stage = .waiting b d) : .caller j ∈ (tellAll b o is l).queue := by
  induction is generalizing l with
  | nil => simp at hj
  | cons i is ih =>
    show .caller j ∈ (tellAll b o is (tellWaiter b o l i)).queue
    by_cases hij : i = j
    · subst hij
      obtain ⟨-, -, -, -, js, hq⟩ := tellAll_frame b o is (tellWaiter b o l i)
      rw [hq]
      refine List.mem_append_left _ ?_
      simp [tellWaiter, callerStage?, hc, hs, tell, enqueue]
    · refine ih (List.mem_of_ne_of_mem (fun h => hij h.symm) hj) ?_
      rw [tellWaiter_callers, List.getElem?_modify_ne _ _ hij, hc]

end EventLoop

end StreamResolver.Cipher
