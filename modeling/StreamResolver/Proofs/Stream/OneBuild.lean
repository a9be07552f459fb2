/-
  What one selection fetches.

  A session builds the transform again whenever it is asked for it and has none, so it is the selector
  that keeps the cost down.  A build asks for the watch page and for the script that the page names,
  and for nothing else (`transform_fetches`).  When it succeeds the transform is kept, and when it
  fails the decoding of the candidate fails, and after that no candidate is decoded.  So along the
  attempts of a selection either nothing was asked for yet, or one build was paid for and there will
  not be another (`Paid`): that is the invariant, and it holds whatever the fetcher gives, whatever
  the probes come to and whatever the session keeps at the start.

  The fetches are read off a notebook, as those of an event loop are.  Keeping one changes no
  selection (`select_noting`).
-/
import StreamResolver.Proofs.Cipher.Fetches
import StreamResolver.Proofs.Stream.Recording

namespace StreamResolver

/-! ## What a build fetches -/

namespace Cipher.Session

variable {σ : Type} {settings : Settings} {f : Fetcher σ}

/-- What is asked for is a beginning of: the watch page, the script that the page names. -/
def OneBuild (settings : Settings) (notes : List Note) : Prop :=
  asked notes <+: settings.watchUrl :: (located? settings notes).toList

theorem oneBuild_nil : OneBuild settings [] := List.nil_prefix

theorem keepScript_world {s : Session σ} {url : String} {r : Except Failure String} {w : σ}
    {events : List Event} (h : f.deliver url s.world = ⟨r, w, events⟩) :
    (keepScript f url s).state.world = w := by
  rcases r with e | source
  · rw [EventLoop.keepScript_refused h]
  · obtain ⟨events', hkeep⟩ := EventLoop.keepScript_kept h
    rw [hkeep]

/-- Getting the script asks for nothing when it is kept, and for the page and the script
    otherwise. -/
theorem script_fetches (settings : Settings) (f : Fetcher σ) (s : Session (Noted σ)) :
    ∃ new, (script settings f.noting s).state.world.notes = s.world.notes ++ new ∧
      OneBuild settings new := by
  rcases hkept : s.cache.script with _ | kept
  case some =>
    have hrun : script settings f.noting s = ⟨.ok kept, s, []⟩ := by
      rw [script, Action.bind_ok (get_eq s), hkept]
      rfl
    exact ⟨[], by rw [hrun, List.append_nil], oneBuild_nil⟩
  let s₁ : Session (Noted σ) := { s with world := f.noting.request settings.watchUrl s.world }
  have hask : askForPage settings f.noting s = ⟨.ok (), s₁, []⟩ := rfl
  have hnotes₁ : s₁.world.notes = s.world.notes ++ [.asked settings.watchUrl] := rfl
  have hrun : script settings f.noting s =
      (do askForPage settings f.noting
          let url ← askForSource settings f.noting
          keepScript f.noting url) s := by
    rw [script, Action.bind_ok (get_eq s), hkept]
    rfl
  rw [hrun, Action.bind_ok hask]
  -- the page was asked for, and each further step adds what it gets and what it asks for
  rcases hpage : f.noting.deliver settings.watchUrl s₁.world with ⟨e | page, w, events⟩
  · have hw := Fetcher.noting_deliver hpage
    rw [Action.bind_error (EventLoop.askForSource_refused hpage)]
    refine ⟨[.asked settings.watchUrl, .got settings.watchUrl (.error e)], ?_, ?_⟩
    · simp [hw, hnotes₁]
    · exact List.prefix_append [settings.watchUrl] _
  have hw := Fetcher.noting_deliver hpage
  rcases hurl : (scriptUrl settings page).result with ⟨e | url, events'⟩
  · rw [Action.bind_error (EventLoop.askForSource_nameless hpage hurl)]
    refine ⟨[.asked settings.watchUrl, .got settings.watchUrl (.ok page)], ?_, ?_⟩
    · simp [hw, hnotes₁]
    · exact List.prefix_append [settings.watchUrl] _
  obtain ⟨events'', hnamed⟩ := EventLoop.askForSource_named hpage hurl
  rw [Action.bind_ok hnamed]
  have hlocated : (scriptUrl settings page).value = .ok url := congrArg Prod.fst hurl
  rcases hsource : f.noting.deliver url (f.noting.request url w) with ⟨r, w', delivered⟩
  have hw' := Fetcher.noting_deliver hsource
  have hworld := keepScript_world (s := { s₁ with world := f.noting.request url w }) hsource
  refine ⟨[.asked settings.watchUrl, .got settings.watchUrl (.ok page), .asked url, .got url r],
    ?_, ?_⟩
  · show (keepScript f.noting url { s₁ with world := f.noting.request url w }).state.world.notes = _
    have hasked : (f.noting.request url w).notes = w.notes ++ [.asked url] := rfl
    rw [hworld, hw', hasked, hw, hnotes₁]
    simp
  · simp [OneBuild, asked, located?, hlocated, Except.toOption]

/-- **A build** asks for one page and one script at most, and for nothing when the transform is
    kept. -/
theorem transform_fetches (settings : Settings) (f : Fetcher σ) (s : Session (Noted σ)) :
    ∃ new, (transform settings f.noting s).state.world.notes = s.world.notes ++ new ∧
      OneBuild settings new ∧ (s.cache.transform.isSome = true → new = []) := by
  obtain ⟨new, hnew, hone⟩ := script_fetches settings f s
  have hcases := transform_transformed settings f.noting s
  generalize transform settings f.noting s = o at hcases
  cases hcases with
  | kept hkept => exact ⟨[], (List.append_nil _).symm, oneBuild_nil, fun _ => rfl⟩
  | failed e events hnone => exact ⟨new, hnew, hone, fun h => by rw [hnone] at h; cases h⟩
  | built build events hnone => exact ⟨new, hnew, hone, fun h => by rw [hnone] at h; cases h⟩

/-- **Deciphering a URL** that carries a cipher asks for what a build asks for, and when it succeeds
    the transform is kept. -/
theorem decipher_fetches {url : String} (hcarries : carriesCipher settings.param url = .ok true)
    (s : Session (Noted σ)) :
    ∃ new, (decipher settings f.noting url s).state.world.notes = s.world.notes ++ new ∧
      OneBuild settings new ∧ (s.cache.transform.isSome = true → new = []) ∧
        ∀ made, (decipher settings f.noting url s).result = .ok made →
          (decipher settings f.noting url s).state.cache.transform.isSome = true := by
  obtain ⟨new, hnew, hone, hkept⟩ := transform_fetches settings f s
  rcases hurl : Url.split url.toList with e | parts
  · rw [carriesCipher, hurl] at hcarries
    cases hcarries
  rw [decipher_eq hurl hcarries]
  rcases ht : transform settings f.noting s with ⟨e | t, s', events⟩
  · rw [ht] at hnew
    rw [Action.bind_error ht]
    exact ⟨new, hnew, hone, hkept, fun made hmade => by cases hmade⟩
  · rw [ht] at hnew
    rw [Action.bind_ok ht]
    refine ⟨new, hnew, hone, hkept, fun _ _ => ?_⟩
    show s'.cache.transform.isSome = true
    rw [transform_keeps ht]
    rfl

end Cipher.Session

namespace Stream

open Network Cipher

variable {σ : Type}

/-! ## A selection with a notebook -/

/-- The same access, with a notebook of what the fetcher is asked for and what it gives. -/
def Access.noting (access : Access σ) : Access (Noted σ) where
  transport :=
    { send := fun request w =>
        let (exchange, world) := access.transport.send request w.world
        (exchange, { w with world }) }
  fetcher := access.fetcher.noting

theorem Access.noting_mirrors (access : Access σ) : access.noting.Mirrors access Noted.world where
  fetcher := access.fetcher.noting_mirrors
  send _ _ := rfl

/-- The session with an empty notebook. -/
def noted (s : Session σ) : Session (Noted σ) := s.mapWorld fun w => ⟨w, []⟩

/-- What the fetcher is asked for and what it gives during a selection, in order. -/
def Selector.fetched (sel : Selector) (access : Access σ) (video : Value) (s : Session σ) :
    List Note :=
  (sel.select access.noting video (noted s)).state.world.notes

/-- The notebook changes no selection. -/
theorem Selector.select_noting (sel : Selector) (access : Access σ) (video : Value)
    (s : Session σ) : sel.select access video s =
      let o := sel.select access.noting video (noted s)
      ⟨o.result, o.state.mapWorld Noted.world, o.events⟩ :=
  mirrors_select access.noting_mirrors sel video (noted s)

/-! ## The attempts of a selection -/

/-- What a selection does after ranking does not touch the session. -/
theorem Selector.selectRanked_state (sel : Selector) (access : Access σ) (videoId : String)
    {ranked : Ranked} (hnone : ranked.presigned = []) (s : Session σ) :
    (sel.selectRanked access videoId ranked s).state =
      (sel.tryEach access videoId false [] ranked.adaptive s).state := by
  rw [selectRanked, hnone]
  dsimp only
  rcases hrun : sel.tryEach access videoId false [] ranked.adaptive s with ⟨e | t, s', events⟩
  · rw [Action.bind_error hrun]
  rw [Action.bind_ok hrun]
  rcases t with ⟨c, url⟩ | _ | ⟨⟨c, url⟩, others⟩
  · rfl
  · rfl
  · dsimp only
    split <;> rfl

/-- The attempts of a selection, and the session that they leave.  They form a course over the
    adaptive candidates in the order of preference.  The selection ends with that session, or with
    the one that making the next candidate ready leaves when that faults. -/
structure Selector.Trials (sel : Selector) (access : Access σ) (video : Value) (s : Session σ)
    (attempts : List (Attempt σ)) (s' : Session σ) : Prop where
  course : Course sel access s attempts s'
  state : (sel.select access video s).state = s' ∨
    ∃ c f, Stuck sel access attempts s' c f (sel.select access video s).state
  candidates : ∀ c, Response.candidates video = .ok c →
    attempts.map Attempt.candidate <+: Candidate.rankAudio c.adaptive

/-- **Every selection** is a row of attempts. -/
theorem Selector.select_trials (sel : Selector) (access : Access σ) (video : Value)
    (s : Session σ) : ∃ (attempts : List (Attempt σ)) (s' : Session σ),
      sel.Trials access video s attempts s' := by
  have hidle : (sel.select access video s).state = s → ∃ (attempts : List (Attempt σ))
      (s' : Session σ), sel.Trials access video s attempts s' :=
    fun h => ⟨[], s, .start, .inl h, fun _ _ => List.nil_prefix⟩
  rcases hfields : video.fieldsOrFault with f | fields
  · refine hidle ?_
    rw [select, Action.bind_error (Action.ofFault_error hfields s)]
  rcases hc : Response.candidates video with f | c
  · refine hidle ?_
    rw [select, Action.bind_ok (Action.ofFault_ok hfields s),
      Action.bind_error (Action.ofFault_error hc s)]
  obtain ⟨events, hselect⟩ := select_eq sel access hfields hc s
  rcases hpresigned : (Ranked.ofCandidates c).presigned with _ | ⟨best, rest⟩
  case cons =>
    refine hidle ?_
    obtain ⟨events', hchoose⟩ :=
      selectRanked_presigned sel access (Response.text fields "videoId") hpresigned s
    rw [hselect, hchoose]
  -- nothing is presigned, so the loop goes over the adaptive candidates
  have hstate : (sel.select access video s).state = (sel.tryEach access
      (Response.text fields "videoId") false [] (Candidate.rankAudio c.adaptive) s).state := by
    rw [hselect]
    exact sel.selectRanked_state access _ hpresigned s
  have hstart : Course sel access s [] s := .start
  obtain ⟨attempts, s', r, s'', events', hrun, hcourse, hstops⟩ :=
    tryEach_stops (Response.text fields "videoId") (Candidate.rankAudio c.adaptive) hstart (by simp)
  have hleft : (sel.select access video s).state = s'' := by
    rw [hstate]
    exact congrArg Outcome.state hrun
  have hover : attempts.map Attempt.candidate <+: Candidate.rankAudio c.adaptive := by
    cases hstops with
    | ended hends =>
      cases hends with
      | reached _ _ _ _ _ hcandidates => exact hcandidates
      | exhausted _ hcandidates => exact hcandidates ▸ List.prefix_refl _
    | unanswered _ _ _ _ hcandidates => exact hcandidates
    | stuck _ hcandidates => exact (List.prefix_append _ _).trans hcandidates
  refine ⟨attempts, s', hcourse, ?_, fun c' hc' => ?_⟩
  · rw [hleft]
    cases hstops with
    | ended _ => exact .inl rfl
    | unanswered _ _ _ _ _ => exact .inl rfl
    | stuck hstuck _ => exact .inr ⟨_, _, hstuck⟩
  · rw [hc] at hc'
    cases hc'
    exact hover

/-! ## What the attempts cost -/

/-- What attempts have cost: nothing was asked for yet, or one build was paid for and there will not
    be another. -/
inductive Paid (settings : Settings) (attempts : List (Attempt (Noted σ)))
    (s : Session (Noted σ)) : Prop where
  | nothing (h : s.world.notes = [])
  | build (hone : Session.OneBuild settings s.world.notes)
      (hover : s.cache.transform.isSome = true ∨ attempts.any Attempt.brokeDown = true)

theorem Paid.oneBuild {settings : Settings} {attempts : List (Attempt (Noted σ))}
    {s : Session (Noted σ)} (h : Paid settings attempts s) :
    Session.OneBuild settings s.world.notes := by
  cases h with
  | nothing hnone =>
    rw [hnone]
    exact Session.oneBuild_nil
  | build hone _ => exact hone

/-- While no decoding has failed, deciphering one more URL costs no more than one build in all, and
    if it succeeds the transform is kept. -/
theorem Paid.decipher {settings : Settings} {f : Fetcher σ} {attempts : List (Attempt (Noted σ))}
    {s : Session (Noted σ)} (h : Paid settings attempts s)
    (hwhole : attempts.any Attempt.brokeDown = false) {url : String}
    (hcarries : carriesCipher settings.param url = .ok true) :
    Session.OneBuild settings
        (Session.decipher settings f.noting url s).state.world.notes ∧
      ∀ made, (Session.decipher settings f.noting url s).result = .ok made →
        (Session.decipher settings f.noting url s).state.cache.transform.isSome = true := by
  obtain ⟨new, hnew, hone, hkept, hmade⟩ := Session.decipher_fetches (f := f) hcarries s
  refine ⟨?_, hmade⟩
  rw [hnew]
  cases h with
  | nothing hnone => rwa [hnone, List.nil_append]
  | build hpaid hover =>
    have htransform : s.cache.transform.isSome = true := by simpa [hwhole] using hover
    rwa [hkept htransform, List.append_nil]

variable {sel : Selector} {access : Access σ}

namespace Attempt.Follows

variable {earlier : List (Attempt (Noted σ))} {s : Session (Noted σ)} {a : Attempt (Noted σ)}

/-- Probing writes nothing in the notebook of the fetcher. -/
theorem notes_eq (h : a.Follows sel access.noting earlier s) :
    a.after.world.notes = a.ready.world.notes := by
  have hsent : (access.noting.transport.send
      (.probe a.url sel.probe.timeout sel.probe.allHeaders) a.ready.world).2.notes =
      a.ready.world.notes := rfl
  rwa [h.probed] at hsent

/-- One more attempt keeps the cost at one build. -/
theorem paid {settings : Settings} (h : a.Follows sel access.noting earlier s)
    (hcipher : sel.cipher = some settings) (hpaid : Paid settings earlier s) :
    Paid settings (earlier ++ [a]) a.after := by
  have hbroken : (earlier ++ [a]).any Attempt.brokeDown =
      (earlier.any Attempt.brokeDown || a.brokeDown) := by simp
  rcases hdecoding : a.decoding with _ | r
  · -- the session is as it was, up to the probe
    have hready := h.raw hdecoding
    cases hpaid with
    | nothing hnone => exact .nothing (by rw [h.notes_eq, hready, hnone])
    | build hone hover =>
      refine .build (by rwa [h.notes_eq, hready]) ?_
      rcases hover with hkept | hbroke
      · exact .inl (by rwa [h.cache_kept, hready])
      · exact .inr (by rw [hbroken, hbroke, Bool.true_or])
  · obtain ⟨⟨settings', hcipher', hcarries⟩, hwhole⟩ := h.decodes.mp (by rw [hdecoding]; rfl)
    obtain ⟨settings'', hcipher'', hresult, hstate⟩ := h.decoded r hdecoding
    obtain rfl : settings = settings' := Option.some.inj (hcipher.symm.trans hcipher')
    obtain rfl : settings = settings'' := Option.some.inj (hcipher.symm.trans hcipher'')
    obtain ⟨hone, hmade⟩ := hpaid.decipher (f := access.fetcher) hwhole hcarries
    have hfetcher : access.noting.fetcher = access.fetcher.noting := rfl
    rw [hfetcher] at hresult hstate
    rw [hstate] at hone hmade
    refine .build (by rwa [h.notes_eq]) ?_
    cases r with
    | ok made =>
      have hkept := hmade made hresult
      exact .inl (by rwa [h.cache_kept])
    | error e =>
      have hbroke : a.brokeDown = true := by rw [Attempt.brokeDown, hdecoding]
      exact .inr (by rw [hbroken, hbroke, Bool.or_true])

end Attempt.Follows

/-- **Along a course** at most one build is paid for. -/
theorem Course.paid {settings : Settings} {s s' : Session (Noted σ)}
    {attempts : List (Attempt (Noted σ))} (h : Course sel access.noting s attempts s')
    (hcipher : sel.cipher = some settings) (hs : s.world.notes = []) :
    Paid settings attempts s' := by
  induction h with
  | start => exact .nothing hs
  | next _ ha ih => exact ha.paid hcipher ih

/-- Without a cipher a course asks for nothing. -/
theorem Course.unpaid {s s' : Session (Noted σ)} {attempts : List (Attempt (Noted σ))}
    (h : Course sel access.noting s attempts s') (hcipher : sel.cipher = none) :
    s'.world.notes = s.world.notes := by
  induction h with
  | start => rfl
  | @next attempts s' a _ ha ih =>
    have hraw : a.decoding = none := by
      rw [← Option.not_isSome_iff_eq_none]
      intro hsome
      obtain ⟨⟨settings, hsettings, -⟩, -⟩ := ha.decodes.mp hsome
      rw [hcipher] at hsettings
      cases hsettings
    rw [ha.notes_eq, ha.raw hraw, ih]

/-- Once a decoding has failed, no later candidate of the course is decoded. -/
theorem Course.decodes_until_failure {s s' : Session σ} {attempts : List (Attempt σ)}
    (h : Course sel access s attempts s') :
    attempts.Pairwise fun a b => a.brokeDown = true → b.decoding = none := by
  induction h with
  | start => exact .nil
  | @next attempts s' b _ hb ih =>
    rw [List.pairwise_append]
    refine ⟨ih, List.pairwise_singleton _ b, fun a ha b' hb' hbroke => ?_⟩
    obtain rfl := List.mem_singleton.mp hb'
    rw [← Option.not_isSome_iff_eq_none]
    intro hsome
    obtain ⟨-, hwhole⟩ := hb.decodes.mp hsome
    have hbroken : attempts.any Attempt.brokeDown = true := List.any_eq_true.mpr ⟨a, ha, hbroke⟩
    rw [hwhole] at hbroken
    cases hbroken

/-! ## What a selection costs -/

/-- What the selection fetches, if it deciphers, is what one build fetches at most. -/
theorem Selector.fetched_oneBuild {settings : Settings} (hcipher : sel.cipher = some settings)
    (access : Access σ) (video : Value) (s : Session σ) :
    Session.OneBuild settings (sel.fetched access video s) := by
  obtain ⟨attempts, s', htrials⟩ := sel.select_trials access.noting video (noted s)
  have hpaid := htrials.course.paid hcipher rfl
  rcases htrials.state with hstate | ⟨c, f, hstuck⟩
  · rw [fetched, hstate]
    exact hpaid.oneBuild
  · rw [fetched]
    generalize (sel.select access.noting video (noted s)).state = s'' at hstuck
    cases hstuck with
    | malformed _ _ _ => exact hpaid.oneBuild
    | faulted hwhole hcipher' hcarries _ =>
      cases hcipher.symm.trans hcipher'
      exact (hpaid.decipher hwhole hcarries).1

/-- Without a cipher a selection fetches nothing. -/
theorem Selector.fetched_nothing (hcipher : sel.cipher = none) (access : Access σ) (video : Value)
    (s : Session σ) : sel.fetched access video s = [] := by
  obtain ⟨attempts, s', htrials⟩ := sel.select_trials access.noting video (noted s)
  have hnotes := htrials.course.unpaid hcipher
  rcases htrials.state with hstate | ⟨c, f, hstuck⟩
  · rw [fetched, hstate, hnotes]
    rfl
  · -- only what is ciphered can fail to be made ready
    generalize (sel.select access.noting video (noted s)).state = s'' at hstuck
    cases hstuck with
    | malformed _ hcipher' _ => cases hcipher.symm.trans hcipher'
    | faulted _ hcipher' _ _ => cases hcipher.symm.trans hcipher'

/-- A candidate that cannot be made ready cannot without the record either, and nothing is
    exchanged for it. -/
theorem Selector.Stuck.unrecorded {attempts : List (Attempt (Recorded σ))}
    {s s' : Session (Recorded σ)} {c : Candidate} {f : Fault}
    (h : Stuck sel access.recording attempts s c f s') :
    Stuck sel access (attempts.map Attempt.unrecorded) (s.mapWorld Recorded.world) c f
        (s'.mapWorld Recorded.world) ∧
      s'.world.exchanges = s.world.exchanges := by
  have hsame : (attempts.map Attempt.unrecorded).any Attempt.brokeDown =
      attempts.any Attempt.brokeDown := List.any_map
  cases h with
  | malformed hwhole hcipher hcarries =>
    exact ⟨.malformed (hsame.trans hwhole) hcipher hcarries, rfl⟩
  | faulted hwhole hcipher hcarries hresult =>
    rw [decipher_recording] at hresult ⊢
    exact ⟨.faulted (hsame.trans hwhole) hcipher hcarries hresult, rfl⟩

/-- **The attempts of a selection** are all that it exchanges with the network: one probe each. -/
theorem Selector.select_exchanges (sel : Selector) (access : Access σ) (video : Value)
    (s : Session σ) : ∃ (attempts : List (Attempt σ)) (s' : Session σ),
      sel.Trials access video s attempts s' ∧
      sel.exchanges access video s = attempts.map (Attempt.exchanged sel) := by
  obtain ⟨attempts, s', htrials⟩ := sel.select_trials access.recording video (recorded s)
  have hexchanges := htrials.course.exchanges_eq
  have hselect : (sel.select access video s).state =
      (sel.select access.recording video (recorded s)).state.mapWorld Recorded.world :=
    congrArg Outcome.state (sel.select_recording access video s)
  refine ⟨attempts.map Attempt.unrecorded, s'.mapWorld Recorded.world, ?_, ?_⟩
  · refine ⟨htrials.course.unrecorded, ?_, fun c hc => ?_⟩
    · rw [hselect]
      rcases htrials.state with hstate | ⟨c, f, hstuck⟩
      · exact .inl (congrArg (Session.mapWorld Recorded.world) hstate)
      · exact .inr ⟨c, f, hstuck.unrecorded.1⟩
    · rw [Attempt.map_candidate_unrecorded]
      exact htrials.candidates c hc
  · rw [exchanges]
    rcases htrials.state with hstate | ⟨c, f, hstuck⟩
    · rw [hstate, hexchanges]
      rfl
    · rw [hstuck.unrecorded.2, hexchanges]
      rfl

/-- **One selection costs at most one build.**  Whatever the fetcher gives and whatever the probes
    come to, it asks for the watch page at most once and, once that has come, for the script that it
    names at most once, and for nothing else.  Once decoding a candidate has failed, the candidates
    after it are tried as they are. -/
theorem Selector.select_builds_once (sel : Selector) (access : Access σ) (video : Value)
    (s : Session σ) :
    (match sel.cipher with
      | none => sel.fetched access video s = []
      | some settings => Session.OneBuild settings (sel.fetched access video s)) ∧
    ∃ (attempts : List (Attempt σ)) (s' : Session σ), sel.Trials access video s attempts s' ∧
      sel.exchanges access video s = attempts.map (Attempt.exchanged sel) ∧
      attempts.Pairwise fun a b => a.brokeDown = true → b.decoding = none := by
  constructor
  · rcases hcipher : sel.cipher with _ | settings
    · exact fetched_nothing hcipher access video s
    · exact fetched_oneBuild hcipher access video s
  · obtain ⟨attempts, s', htrials, hexchanges⟩ := sel.select_exchanges access video s
    exact ⟨attempts, s', htrials, hexchanges, htrials.course.decodes_until_failure⟩

end Stream

end StreamResolver
