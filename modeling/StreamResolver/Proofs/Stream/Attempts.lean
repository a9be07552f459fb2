/-
  The candidates that are tried, one after another.

  Trying a candidate is an `Attempt`: its URL is decoded or left as it is, the URL is probed, and
  the session goes from one state to the next.  A `Course` is a list of attempts in which each
  begins where the one before it ended, and each decodes exactly if it is to: the URL is ciphered
  and no decoding has failed before (`Attempt.Follows`).

  The loop of the selector carries two things, the URLs tried so far and whether decoding is
  broken.  Both are read off the course of the attempts so far, and that is the invariant of the
  loop (`tryEach_stops`): it makes a course, stops at the first attempt that reaches its URL, and
  otherwise goes through all candidates.

  Decoding and probing may fail with failures that are not announced.  These escape from the
  selector, so the loop may also stop at a probe that was not answered, or at a candidate that
  could not be made ready (`Stuck`).  `Tame` says that this does not happen in the states that
  selecting can come to, and then the loop ends as it should (`tryEach_course`).
-/
import StreamResolver.Stream.Selector

namespace StreamResolver.Stream

open Network Cipher

variable {σ : Type}

/-- One candidate that was tried. -/
structure Attempt (σ : Type) where
  candidate : Candidate
  /-- The session when the candidate was taken up. -/
  before : Session σ
  /-- What decoding its URL gave, if it was decoded. -/
  decoding : Option (Except ExtractorError String)
  /-- The session when the URL was probed. -/
  ready : Session σ
  /-- What came of the probe. -/
  exchange : Exchange
  after : Session σ

namespace Attempt

/-- The URL that was probed: the decoded one, else the raw one. -/
def url (a : Attempt σ) : String :=
  match a.decoding with
  | some (.ok decoded) => decoded
  | _ => a.candidate.url

/-- Whether decoding failed. -/
def brokeDown (a : Attempt σ) : Bool :=
  match a.decoding with
  | some (.error _) => true
  | _ => false

/-- Whether the probe was answered with success or a redirection. -/
def reached (a : Attempt σ) : Bool :=
  match a.exchange with
  | .ok answer => answer.isReachable
  | .error _ => false

/-- What the probe gives: whether the URL is reachable, or what escapes from the exchange. -/
def answer (a : Attempt σ) : Except Failure Bool :=
  match a.exchange with
  | .ok answer => .ok answer.isReachable
  | .error (.fault f) => .error (.fault f)
  | .error _ => .ok false

theorem reached_of_answer {a : Attempt σ} {b : Bool} (h : a.answer = .ok b) : a.reached = b := by
  unfold answer at h
  unfold reached
  split at h
  · next he =>
    cases h
    rw [he]
  · cases h
  · next he =>
    cases h
    rw [he]

theorem fault_of_answer {a : Attempt σ} {e : Failure} (h : a.answer = .error e) :
    ∃ f, e = .fault f ∧ a.exchange = .error (.fault f) := by
  unfold answer at h
  split at h
  · cases h
  · next f he =>
    cases h
    exact ⟨f, rfl, he⟩
  · cases h

/-- What comes next after the given attempts in the given state. -/
structure Follows (sel : Selector) (access : Access σ) (earlier : List (Attempt σ)) (s : Session σ)
    (a : Attempt σ) : Prop where
  before_eq : a.before = s
  /-- It is decoded exactly if it is ciphered and no decoding has failed before. -/
  decodes : a.decoding.isSome = true ↔
    (∃ settings, sel.cipher = some settings ∧
      carriesCipher settings.param a.candidate.url = .ok true) ∧ earlier.any brokeDown = false
  decoded : ∀ r, a.decoding = some r → ∃ settings, sel.cipher = some settings ∧
    (Session.decipher settings access.fetcher a.candidate.url s).result = r.mapError .extractor ∧
    (Session.decipher settings access.fetcher a.candidate.url s).state = a.ready
  raw : a.decoding = none → a.ready = s
  probed : access.transport.send (.probe a.url sel.probe.timeout sel.probe.allHeaders)
    a.ready.world = (a.exchange, a.after.world)
  cache_kept : a.after.cache = a.ready.cache

end Attempt

/-- Attempts one after another. -/
inductive Course (sel : Selector) (access : Access σ) (s : Session σ) :
    List (Attempt σ) → Session σ → Prop where
  | start : Course sel access s [] s
  | next {attempts : List (Attempt σ)} {s' : Session σ} {a : Attempt σ}
      (h : Course sel access s attempts s') (ha : a.Follows sel access attempts s') :
      Course sel access s (attempts ++ [a]) a.after

/-- The states that a session can come to by deciphering and probing. -/
inductive Later (sel : Selector) (access : Access σ) (s : Session σ) : Session σ → Prop where
  | now : Later sel access s s
  | deciphered {s' : Session σ} {settings : Settings} {url : String} {parts : Url}
      (h : Later sel access s s') (hc : sel.cipher = some settings)
      (hu : Url.split url.toList = .ok parts) :
      Later sel access s (Session.decipher settings access.fetcher url s').state
  | probed {s' : Session σ} (url : String) (h : Later sel access s s') :
      Later sel access s { s' with
        world := (access.transport.send
          (.probe url sel.probe.timeout sel.probe.allHeaders) s'.world).2 }

/-- Decoding a URL only fails with announced failures, and probes are answered or refused. -/
structure Tame (sel : Selector) (access : Access σ) (s : Session σ) : Prop where
  announced : ∀ s' settings url parts f, Later sel access s s' → sel.cipher = some settings →
    Url.split url.toList = .ok parts →
    (Session.decipher settings access.fetcher url s').result ≠ .error (.fault f)
  answered : ∀ s' url f, Later sel access s s' →
    (access.transport.send (.probe url sel.probe.timeout sel.probe.allHeaders) s'.world).1 ≠
      .error (.fault f)

namespace Selector

variable {sel : Selector} {access : Access σ} {videoId : String}

/-! ## One attempt -/

/-- A probe is one exchange, and its answer tells what comes of it. -/
theorem reaches_eq {url : String} {s : Session σ} {exchange : Exchange} {w : σ}
    (h : access.transport.send (.probe url sel.probe.timeout sel.probe.allHeaders) s.world =
      (exchange, w)) (a : Attempt σ) (ha : a.exchange = exchange) :
    ∃ events, Session.onWorld (sel.probe.reaches access.transport url) s =
      ⟨a.answer, { s with world := w }, events⟩ := by
  unfold Session.onWorld Action.onPart Probe.reaches
  rw [h]
  rcases exchange with (_ | detail | f) | answer
  · exact ⟨_, by simp only [Attempt.answer, ha]; rfl⟩
  · exact ⟨_, by simp only [Attempt.answer, ha]; rfl⟩
  · exact ⟨_, by simp only [Attempt.answer, ha]; rfl⟩
  · cases hr : answer.isReachable
    · exact ⟨_, by simp only [Attempt.answer, ha, hr]; rfl⟩
    · exact ⟨_, by simp only [Attempt.answer, ha, hr]; rfl⟩

/-- A URL that splits either carries a ciphered value or not. -/
theorem carriesCipher_ok (param : String) {url : String} {parts : Url}
    (h : Url.split url.toList = .ok parts) : ∃ b, carriesCipher param url = .ok b := by
  rw [carriesCipher, h]
  exact ⟨_, rfl⟩

/-- What making a URL ready comes to: it is left as it is, it is decoded or decoding it fails, or
    something escapes. -/
inductive Readied (sel : Selector) (access : Access σ) (url : String) (s : Session σ) :
    Outcome (Session σ) (String × Bool) → Prop where
  | asIs (hnot : ¬ ∃ settings, sel.cipher = some settings ∧
      carriesCipher settings.param url = .ok true) : Readied sel access url s ⟨.ok (url, false), s, []⟩
  | decoded {settings : Settings} (r : Except ExtractorError String) (events : List Event)
      (hcipher : sel.cipher = some settings) (hcarries : carriesCipher settings.param url = .ok true)
      (hresult : (Session.decipher settings access.fetcher url s).result = r.mapError .extractor) :
      Readied sel access url s
        ⟨.ok (match r with | .ok decoded => (decoded, false) | .error _ => (url, true)),
          (Session.decipher settings access.fetcher url s).state, events⟩
  | malformed {settings : Settings} {f : Fault} (hcipher : sel.cipher = some settings)
      (hcarries : carriesCipher settings.param url = .error f) :
      Readied sel access url s ⟨.error (.fault f), s, []⟩
  | faulted {settings : Settings} {f : Fault} (events : List Event)
      (hcipher : sel.cipher = some settings) (hcarries : carriesCipher settings.param url = .ok true)
      (hresult : (Session.decipher settings access.fetcher url s).result = .error (.fault f)) :
      Readied sel access url s ⟨.error (.fault f),
        (Session.decipher settings access.fetcher url s).state, events⟩

/-- **Making a URL ready** comes to one of these. -/
theorem decoded_readied (sel : Selector) (access : Access σ) (videoId url : String)
    (s : Session σ) : Readied sel access url s (sel.decoded access videoId url s) := by
  rcases hcipher : sel.cipher with _ | settings
  · rw [decoded, hcipher]
    exact .asIs (by simp [hcipher])
  rcases hcarries : carriesCipher settings.param url with f | carries
  · have hrun : sel.decoded access videoId url s = ⟨.error (.fault f), s, []⟩ := by
      simp only [decoded, hcipher]
      exact Action.bind_error (Action.ofFault_error hcarries s)
    exact hrun ▸ .malformed hcipher hcarries
  have hlook := Action.ofFault_ok hcarries s
  cases carries with
  | false =>
    have hrun : sel.decoded access videoId url s = ⟨.ok (url, false), s, []⟩ := by
      simp only [decoded, hcipher]
      exact Action.bind_ok hlook
    exact hrun ▸ .asIs (by simp [hcipher, hcarries])
  | true =>
    rcases hd : Session.decipher settings access.fetcher url s with ⟨r, s', ev⟩
    have hattempt : (Session.decipher settings access.fetcher url).attempt s = ⟨.ok r, s', ev⟩ := by
      rw [Action.attempt, hd]
    have hresult : (Session.decipher settings access.fetcher url s).result = r := by rw [hd]
    have hstate : s' = (Session.decipher settings access.fetcher url s).state := by rw [hd]
    rcases r with (e | f) | deciphered
    · have hrun : ∃ events, sel.decoded access videoId url s = ⟨.ok (url, true), s', events⟩ := by
        simp only [decoded, hcipher]
        rw [Action.bind_ok hlook, if_neg (by simp), Action.bind_ok hattempt]
        exact ⟨_, rfl⟩
      obtain ⟨events, hrun⟩ := hrun
      rw [hrun, hstate]
      exact .decoded (.error e) events hcipher hcarries hresult
    · have hrun : ∃ events, sel.decoded access videoId url s =
          ⟨.error (.fault f), s', events⟩ := by
        simp only [decoded, hcipher]
        rw [Action.bind_ok hlook, if_neg (by simp), Action.bind_ok hattempt]
        exact ⟨_, rfl⟩
      obtain ⟨events, hrun⟩ := hrun
      rw [hrun, hstate]
      exact .faulted events hcipher hcarries hresult
    · have hrun : ∃ events, sel.decoded access videoId url s =
          ⟨.ok (deciphered, false), s', events⟩ := by
        simp only [decoded, hcipher]
        rw [Action.bind_ok hlook, if_neg (by simp), Action.bind_ok hattempt]
        exact ⟨_, rfl⟩
      obtain ⟨events, hrun⟩ := hrun
      rw [hrun, hstate]
      exact .decoded (.ok deciphered) events hcipher hcarries hresult

/-- Making the URL of the next candidate ready, after the attempts so far. -/
def ready (sel : Selector) (access : Access σ) (videoId : String) (broken : Bool) (c : Candidate) :
    Action (Session σ) (String × Bool) :=
  if broken then pure (c.url, true) else sel.decoded access videoId c.url

/-- The next candidate cannot be made ready after the attempts so far, and what escapes: its URL
    cannot be cut, or decoding it fails with a failure that is not announced. -/
inductive Stuck (sel : Selector) (access : Access σ) (earlier : List (Attempt σ)) (s : Session σ)
    (c : Candidate) : Fault → Session σ → Prop where
  | malformed {settings : Settings} {f : Fault} (hwhole : earlier.any Attempt.brokeDown = false)
      (hcipher : sel.cipher = some settings)
      (hcarries : carriesCipher settings.param c.url = .error f) : Stuck sel access earlier s c f s
  | faulted {settings : Settings} {f : Fault} (hwhole : earlier.any Attempt.brokeDown = false)
      (hcipher : sel.cipher = some settings)
      (hcarries : carriesCipher settings.param c.url = .ok true)
      (hresult : (Session.decipher settings access.fetcher c.url s).result = .error (.fault f)) :
      Stuck sel access earlier s c f (Session.decipher settings access.fetcher c.url s).state

/-- What is left once the URL is ready: the probe. -/
theorem probe_attempt (sel : Selector) (access : Access σ) (c : Candidate) (s : Session σ)
    (decoding : Option (Except ExtractorError String)) (s' : Session σ) :
    ∃ a : Attempt σ, a.candidate = c ∧ a.before = s ∧ a.decoding = decoding ∧ a.ready = s' ∧
      access.transport.send (.probe a.url sel.probe.timeout sel.probe.allHeaders) a.ready.world =
        (a.exchange, a.after.world) ∧ a.after.cache = a.ready.cache ∧
      ∃ events, Session.onWorld (sel.probe.reaches access.transport a.url) a.ready =
        ⟨a.answer, a.after, events⟩ := by
  let a₀ : Attempt σ := ⟨c, s, decoding, s', .error .timedOut, s'⟩
  rcases hsend : access.transport.send
    (.probe a₀.url sel.probe.timeout sel.probe.allHeaders) s'.world with ⟨exchange, w⟩
  exact ⟨⟨c, s, decoding, s', exchange, { s' with world := w }⟩, rfl, rfl, rfl, rfl, hsend, rfl,
    reaches_eq hsend _ rfl⟩

/-- **The next attempt**: it follows the ones so far, and it is what the loop does, unless the
    candidate cannot be made ready. -/
theorem next_attempt (sel : Selector) (access : Access σ) (videoId : String) (s : Session σ)
    (earlier : List (Attempt σ)) (c : Candidate) :
    (∃ a : Attempt σ, a.candidate = c ∧ a.Follows sel access earlier s ∧
      (∃ events, ready sel access videoId (earlier.any Attempt.brokeDown) c s =
        ⟨.ok (a.url, (earlier ++ [a]).any Attempt.brokeDown), a.ready, events⟩) ∧
      ∃ events, Session.onWorld (sel.probe.reaches access.transport a.url) a.ready =
        ⟨a.answer, a.after, events⟩) ∨
    ∃ (f : Fault) (s' : Session σ) (events : List Event), Stuck sel access earlier s c f s' ∧
      ready sel access videoId (earlier.any Attempt.brokeDown) c s =
        ⟨.error (.fault f), s', events⟩ := by
  by_cases hbroken : earlier.any Attempt.brokeDown = true
  · obtain ⟨a, hc, hbefore, hnone, hready, hsend, hcache, hreach⟩ :=
      probe_attempt sel access c s none s
    have hurl : a.url = c.url := by rw [Attempt.url, hnone, hc]
    refine .inl ⟨a, hc, ⟨hbefore, ?_, ?_, fun _ => hready, hsend, hcache⟩, ⟨[], ?_⟩, hreach⟩
    · simp [hnone, hbroken]
    · simp [hnone]
    · rw [ready, if_pos hbroken, hurl, hready, List.any_append, hbroken, Bool.true_or]
      rfl
  have hwhole : earlier.any Attempt.brokeDown = false := by simpa using hbroken
  have hreadied := decoded_readied sel access videoId c.url s
  rw [ready, if_neg hbroken]
  generalize sel.decoded access videoId c.url s = o at hreadied
  cases hreadied with
  | asIs hnot =>
    obtain ⟨a, hc, hbefore, hnone, hready, hsend, hcache, hreach⟩ :=
      probe_attempt sel access c s none s
    have hurl : a.url = c.url := by rw [Attempt.url, hnone, hc]
    refine .inl ⟨a, hc, ⟨hbefore, ?_, ?_, fun _ => hready, hsend, hcache⟩, ⟨[], ?_⟩, hreach⟩
    · rw [hc, hnone]
      simp only [Option.isSome_none, Bool.false_eq_true, false_iff, not_and]
      exact fun h => absurd h hnot
    · simp [hnone]
    · have hfine : a.brokeDown = false := by rw [Attempt.brokeDown, hnone]
      rw [hurl, hready, List.any_append, hwhole, List.any_cons, hfine]
      rfl
  | @decoded settings r events hcipher hcarries hresult =>
    obtain ⟨a, hc, hbefore, hsome, hready, hsend, hcache, hreach⟩ :=
      probe_attempt sel access c s (some r) (Session.decipher settings access.fetcher c.url s).state
    refine .inl ⟨a, hc, ⟨hbefore, ?_, ?_, ?_, hsend, hcache⟩, ⟨events, ?_⟩, hreach⟩
    · rw [hc, hsome]
      simp only [Option.isSome_some, true_iff]
      exact ⟨⟨settings, hcipher, hcarries⟩, hwhole⟩
    · intro r' hr'
      rw [hsome, Option.some.injEq] at hr'
      subst hr'
      exact ⟨settings, hcipher, by rw [hc, hresult], by rw [hc, hready]⟩
    · simp [hsome]
    · rw [hready, List.any_append, hwhole, List.any_cons]
      cases r with
      | ok deciphered => simp [Attempt.url, Attempt.brokeDown, hsome]
      | error e => simp [Attempt.url, Attempt.brokeDown, hsome, hc]
  | malformed hcipher hcarries => exact .inr ⟨_, _, _, .malformed hwhole hcipher hcarries, rfl⟩
  | faulted events hcipher hcarries hresult =>
    exact .inr ⟨_, _, _, .faulted hwhole hcipher hcarries hresult, rfl⟩

/-! ## The loop -/

/-- The loop makes the URL of the next candidate ready, probes it, and stops or goes on. -/
theorem tryEach_eq (broken : Bool) (tried : List (Candidate × String)) (c : Candidate)
    (rest : List Candidate) : sel.tryEach access videoId broken tried (c :: rest) =
      (ready sel access videoId broken c >>= fun p => do
        if ← Session.onWorld (sel.probe.reaches access.transport p.1) then return .reached c p.1
        else
          .emit .debug "stream_candidate_unreachable"
            [("video_id", .str videoId), ("itag", .str c.itag), ("codec", .str c.codec.name)]
          sel.tryEach access videoId p.2 (tried ++ [(c, p.1)]) rest) := by
  rw [tryEach, ready]
  cases broken <;> rfl

/-- One round of the loop from a state. -/
theorem tryEach_cons {broken broken' : Bool} (tried : List (Candidate × String)) {c : Candidate}
    (rest : List Candidate) {s s' s'' : Session σ} {url : String} {reached : Bool}
    {events events' : List Event}
    (hready : ready sel access videoId broken c s = ⟨.ok (url, broken'), s', events⟩)
    (hprobe : Session.onWorld (sel.probe.reaches access.transport url) s' =
      ⟨.ok reached, s'', events'⟩) :
    ∃ events, sel.tryEach access videoId broken tried (c :: rest) s =
      if reached then ⟨.ok (.reached c url), s'', events⟩
      else
        let o := sel.tryEach access videoId broken' (tried ++ [(c, url)]) rest s''
        { o with events := events ++ o.events } := by
  rw [tryEach_eq, Action.bind_ok hready, Action.bind_ok hprobe]
  cases reached with
  | true => exact ⟨_, rfl⟩
  | false =>
    refine ⟨events ++ (events' ++ [⟨.debug, "stream_candidate_unreachable",
      [("video_id", .str videoId), ("itag", .str c.itag), ("codec", .str c.codec.name)]⟩]), ?_⟩
    have hemit : (Action.emit .debug "stream_candidate_unreachable" [("video_id", .str videoId),
        ("itag", .str c.itag), ("codec", .str c.codec.name)] : Action (Session σ) Unit) s'' =
        ⟨.ok (), s'', [⟨.debug, "stream_candidate_unreachable", [("video_id", .str videoId),
          ("itag", .str c.itag), ("codec", .str c.codec.name)]⟩]⟩ := rfl
    rw [if_neg (by simp), if_neg (by simp), Action.bind_ok hemit]
    simp only [List.append_assoc]

/-- What attempts over some candidates come to. -/
inductive Ends (attempts : List (Attempt σ)) (candidates : List Candidate) : Tried → Prop where
  /-- The last one reaches its URL and is the first to do so. -/
  | reached (passed : List (Attempt σ)) (a : Attempt σ) (hlast : attempts = passed ++ [a])
      (hmissed : ∀ b ∈ passed, b.reached = false) (hreached : a.reached = true)
      (hcandidates : attempts.map Attempt.candidate <+: candidates) :
      Ends attempts candidates (.reached a.candidate a.url)
  | exhausted (hmissed : ∀ a ∈ attempts, a.reached = false)
      (hcandidates : attempts.map Attempt.candidate = candidates) :
      Ends attempts candidates (.exhausted (attempts.map fun a => (a.candidate, a.url)))

/-- How the loop stops after the attempts, and with which session. -/
inductive Stops (sel : Selector) (access : Access σ) (attempts : List (Attempt σ)) (s : Session σ)
    (candidates : List Candidate) : Except Failure Tried → Session σ → Prop where
  | ended {t : Tried} (h : Ends attempts candidates t) :
      Stops sel access attempts s candidates (.ok t) s
  /-- The last probe was not answered. -/
  | unanswered (passed : List (Attempt σ)) (a : Attempt σ) {f : Fault}
      (hlast : attempts = passed ++ [a]) (hfault : a.exchange = .error (.fault f))
      (hcandidates : attempts.map Attempt.candidate <+: candidates) :
      Stops sel access attempts s candidates (.error (.fault f)) s
  | stuck {c : Candidate} {f : Fault} {s' : Session σ} (h : Stuck sel access attempts s c f s')
      (hcandidates : attempts.map Attempt.candidate ++ [c] <+: candidates) :
      Stops sel access attempts s candidates (.error (.fault f)) s'

/-- **The loop makes a course** that goes on from the attempts so far.  It ends with the first
    attempt that reaches its URL, or it goes through all candidates, unless something escapes. -/
theorem tryEach_stops (videoId : String) (rest : List Candidate) {s₀ : Session σ}
    {earlier : List (Attempt σ)} {s : Session σ} (hcourse : Course sel access s₀ earlier s)
    (hmissed : ∀ a ∈ earlier, a.reached = false) :
    ∃ (attempts : List (Attempt σ)) (s' : Session σ) (r : Except Failure Tried) (s'' : Session σ)
      (events : List Event),
      sel.tryEach access videoId (earlier.any Attempt.brokeDown)
        (earlier.map fun a => (a.candidate, a.url)) rest s = ⟨r, s'', events⟩ ∧
      Course sel access s₀ attempts s' ∧
      Stops sel access attempts s' (earlier.map Attempt.candidate ++ rest) r s'' := by
  induction rest generalizing earlier s with
  | nil =>
    exact ⟨earlier, s, _, s, [], rfl, hcourse, .ended (.exhausted hmissed (List.append_nil _).symm)⟩
  | cons c rest ih =>
    rcases next_attempt sel access videoId s earlier c with
      ⟨a, hc, hfollows, ⟨events, hready⟩, events', hprobe⟩ | ⟨f, s', events, hstuck, hready⟩
    · have hnext := hcourse.next hfollows
      have hprefix : (earlier ++ [a]).map Attempt.candidate <+:
          earlier.map Attempt.candidate ++ c :: rest := by
        rw [List.map_append, List.map_singleton, hc]
        exact ⟨rest, (List.append_cons _ c rest).symm⟩
      rcases hanswer : a.answer with e | reached
      · -- the probe escapes, and the loop with it
        obtain ⟨f, rfl, hfault⟩ := Attempt.fault_of_answer hanswer
        rw [hanswer] at hprobe
        have hrun : ∃ events, sel.tryEach access videoId (earlier.any Attempt.brokeDown)
            (earlier.map fun a => (a.candidate, a.url)) (c :: rest) s =
              ⟨.error (.fault f), a.after, events⟩ := by
          rw [tryEach_eq, Action.bind_ok hready, Action.bind_error hprobe]
          exact ⟨_, rfl⟩
        obtain ⟨events, hrun⟩ := hrun
        exact ⟨earlier ++ [a], a.after, _, a.after, events, hrun, hnext,
          .unanswered earlier a rfl hfault hprefix⟩
      · have hreached := Attempt.reached_of_answer hanswer
        rw [hanswer] at hprobe
        obtain ⟨passed, hround⟩ := tryEach_cons
          (earlier.map fun a => (a.candidate, a.url)) rest hready hprobe
        rw [hround]
        cases reached with
        | true =>
          refine ⟨earlier ++ [a], a.after, .ok (.reached c a.url), a.after, passed, rfl, hnext, ?_⟩
          rw [← hc] at hprefix ⊢
          exact .ended (.reached earlier a rfl hmissed hreached hprefix)
        | false =>
          have hmissed' : ∀ b ∈ earlier ++ [a], b.reached = false := by
            intro b hb
            rcases List.mem_append.mp hb with hb | hb
            · exact hmissed b hb
            · rw [List.mem_singleton.mp hb, hreached]
          obtain ⟨attempts, s', r, s'', further, hrest, hcourse', hstops⟩ := ih hnext hmissed'
          rw [List.map_append, List.map_singleton, hc] at hrest hstops
          refine ⟨attempts, s', r, s'', passed ++ further, ?_, hcourse', ?_⟩
          · rw [if_neg (by simp), hrest]
          · rw [List.append_assoc] at hstops
            exact hstops
    · have hrun : sel.tryEach access videoId (earlier.any Attempt.brokeDown)
          (earlier.map fun a => (a.candidate, a.url)) (c :: rest) s =
            ⟨.error (.fault f), s', events⟩ := by
        rw [tryEach_eq, Action.bind_error hready]
      exact ⟨earlier, s, _, s', events, hrun, hcourse,
        .stuck hstuck ⟨rest, (List.append_cons _ c rest).symm⟩⟩

end Selector

/-! ## Where nothing escapes -/

variable {sel : Selector} {access : Access σ}

/-- The state in which an attempt probes is one that the session can come to. -/
theorem Later.ready {s₀ s : Session σ} {earlier : List (Attempt σ)} {a : Attempt σ}
    (hs : Later sel access s₀ s) (ha : a.Follows sel access earlier s) {parts : Url}
    (hurl : Url.split a.candidate.url.toList = .ok parts) : Later sel access s₀ a.ready := by
  rcases hdecoding : a.decoding with _ | r
  · rw [ha.raw hdecoding]
    exact hs
  · obtain ⟨settings, hcipher, -, hstate⟩ := ha.decoded r hdecoding
    rw [← hstate]
    exact hs.deciphered hcipher hurl

/-- A course only comes to states that the session can come to. -/
theorem Course.later {s₀ s : Session σ} {attempts : List (Attempt σ)}
    (h : Course sel access s₀ attempts s)
    (hurls : ∀ a ∈ attempts, ∃ parts, Url.split a.candidate.url.toList = .ok parts) :
    Later sel access s₀ s := by
  induction h with
  | start => exact .now
  | @next attempts s' a _ ha ih =>
    obtain ⟨parts, hurl⟩ := hurls a (List.mem_append_right _ List.mem_cons_self)
    have hready := Later.ready (ih fun b hb => hurls b (List.mem_append_left _ hb)) ha hurl
    have hafter : a.after = { a.ready with world := (access.transport.send
        (.probe a.url sel.probe.timeout sel.probe.allHeaders) a.ready.world).2 } := by
      show a.after = ⟨a.ready.cache, _⟩
      rw [ha.probed, ← ha.cache_kept]
    rw [hafter]
    exact hready.probed a.url

/-- A course ends with its last attempt. -/
theorem Course.last {s₀ s : Session σ} {passed : List (Attempt σ)} {a : Attempt σ}
    (h : Course sel access s₀ (passed ++ [a]) s) :
    ∃ s', Course sel access s₀ passed s' ∧ a.Follows sel access passed s' := by
  generalize hattempts : passed ++ [a] = attempts at h
  cases h with
  | start => simp at hattempts
  | next h ha =>
    obtain ⟨rfl, hsame⟩ := List.append_inj' hattempts rfl
    cases hsame
    exact ⟨_, h, ha⟩

/-- **The loop in a tame world** makes a course and ends as it should. -/
theorem Selector.tryEach_course (videoId : String) {s : Session σ} (htame : Tame sel access s)
    {candidates : List Candidate}
    (hurls : ∀ c ∈ candidates, ∃ parts, Url.split c.url.toList = .ok parts) :
    ∃ (attempts : List (Attempt σ)) (t : Tried) (s' : Session σ) (events : List Event),
      sel.tryEach access videoId false [] candidates s = ⟨.ok t, s', events⟩ ∧
      Course sel access s attempts s' ∧ Ends attempts candidates t := by
  have hstart : Course sel access s [] s := .start
  obtain ⟨attempts, s', r, s'', events, hrun, hcourse, hstops⟩ :=
    tryEach_stops videoId candidates hstart (by simp)
  have hsplit : ∀ {front : List Candidate}, attempts.map Attempt.candidate ++ front <+: candidates →
      ∀ a ∈ attempts, ∃ parts, Url.split a.candidate.url.toList = .ok parts := fun h a ha =>
    hurls _ (h.subset (List.mem_append_left _ (List.mem_map_of_mem ha)))
  cases hstops with
  | ended h => exact ⟨attempts, _, s', events, hrun, hcourse, h⟩
  | @unanswered passed a f hlast hfault hcandidates =>
    subst hlast
    obtain ⟨s₁, hpassed, hfollows⟩ := hcourse.last
    have hall := @hsplit [] (by simpa using hcandidates)
    obtain ⟨parts, hurl⟩ := hall a (List.mem_append_right _ List.mem_cons_self)
    have hlater := hpassed.later fun b hb => hall b (List.mem_append_left _ hb)
    refine absurd ?_ (htame.answered a.ready a.url f (Later.ready hlater hfollows hurl))
    rw [hfollows.probed]
    exact hfault
  | @stuck c f _ hstuck hcandidates =>
    have hlater := hcourse.later (hsplit hcandidates)
    obtain ⟨parts, hurl⟩ := hurls c (hcandidates.subset (List.mem_append_right _ List.mem_cons_self))
    cases hstuck with
    | malformed _ _ hcarries =>
      obtain ⟨b, hb⟩ := carriesCipher_ok _ hurl
      cases hcarries.symm.trans hb
    | faulted _ hcipher _ hresult =>
      exact absurd hresult (htame.announced s' _ c.url parts f hlater hcipher hurl)

end StreamResolver.Stream
