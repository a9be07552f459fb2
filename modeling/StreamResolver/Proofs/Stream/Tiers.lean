/-
  The tiers of a selection.

  A response that can be read gives candidates, and `select_tiers` says which of them is selected:

    * if some presigned candidate can be played, the preferred one, as it is and with the session
      untouched;
    * else the first adaptive one, in the order of preference, that is reachable at its URL;
    * else, if that is allowed, the preferred adaptive one at the URL it was tried at;
    * else none, and the failure counts what there was.

  The attempts on the way form a course, so each candidate is decoded and probed in its turn and
  none behind the selected one is touched.
-/
import StreamResolver.Cipher.Pages
import StreamResolver.Proofs.Media.Ranking
import StreamResolver.Proofs.Stream.Attempts

namespace StreamResolver

namespace Stream

open Network Cipher

variable {σ : Type}

/-- The selection of a candidate at a URL. -/
def selectionOf (c : Candidate) (url : String) (tier : Tier) (validated : Bool) : Selection :=
  ⟨url, tier, c.codec, c.bitrate, c.itag, validated⟩

/-- What is counted when no stream can be selected and so many candidates were probed. -/
def shortage (c : Response.Candidates) (probed : Nat) : Keyed Int :=
  ([("presigned", (Candidate.rankAudio c.presigned).length)] ++
    Candidate.codecCounts (Candidate.rankAudio c.adaptive) ++
    [("probed", probed),
     ("manifests_excluded", (c.presigned ++ c.adaptive).countP (·.isManifest))]).map
      fun e => (e.1, (e.2 : Int))

namespace Selector

variable {sel : Selector} {access : Access σ}

theorem choose_eq (videoId : String) (c : Candidate) (url : String) (tier : Tier) (validated : Bool)
    (s : Session σ) : ∃ events, choose videoId c url tier validated s =
      ⟨.ok (selectionOf c url tier validated), s, events⟩ := ⟨_, rfl⟩

/-- Selecting reads the candidates, reports them, and goes on with the ranked ones. -/
theorem select_eq (sel : Selector) (access : Access σ) {video : Value} {fields : Keyed Value}
    {c : Response.Candidates} (hfields : video.fieldsOrFault = .ok fields)
    (hc : Response.candidates video = .ok c) (s : Session σ) :
    ∃ events, sel.select access video s =
      let o := sel.selectRanked access (Response.text fields "videoId") (Ranked.ofCandidates c) s
      { o with events := events ++ o.events } := by
  have hread := Action.ofFault_ok hfields s
  have hcandidates := Action.ofFault_ok hc s
  unfold select
  rw [Action.bind_ok hread, Action.bind_ok hcandidates]
  exact ⟨[_], rfl⟩

/-- Some presigned candidate can be played: the preferred one is selected, and nothing else
    happens. -/
theorem selectRanked_presigned (sel : Selector) (access : Access σ) (videoId : String)
    {ranked : Ranked} {best : Candidate} {rest : List Candidate}
    (h : ranked.presigned = best :: rest) (s : Session σ) :
    ∃ events, sel.selectRanked access videoId ranked s =
      ⟨.ok (selectionOf best best.url .presigned false), s, events⟩ := by
  rw [selectRanked, h]
  exact choose_eq videoId best best.url .presigned false s

/-- What is selected when no presigned candidate can be played, by what the attempts came to. -/
inductive Verdict (sel : Selector) (videoId : String) (c : Response.Candidates)
    (attempts : List (Attempt σ)) : Except Failure Selection → Prop where
  /-- The first candidate that is reachable, and the last one that was tried. -/
  | adaptive (passed : List (Attempt σ)) (a : Attempt σ) (hlast : attempts = passed ++ [a])
      (hmissed : ∀ b ∈ passed, b.reached = false) (hreached : a.reached = true)
      (hcandidates : attempts.map Attempt.candidate <+: Candidate.rankAudio c.adaptive) :
      Verdict sel videoId c attempts (.ok (selectionOf a.candidate a.url .adaptive true))
  /-- The preferred candidate, at the URL that was tried. -/
  | fallback (first : Attempt σ) (others : List (Attempt σ)) (hfirst : attempts = first :: others)
      (hmissed : ∀ b ∈ attempts, b.reached = false) (hallowed : sel.allowUnvalidated = true)
      (hcandidates : attempts.map Attempt.candidate = Candidate.rankAudio c.adaptive) :
      Verdict sel videoId c attempts (.ok (selectionOf first.candidate first.url .fallback false))
  | none (hnone : attempts = [] ∨ sel.allowUnvalidated = false)
      (hmissed : ∀ b ∈ attempts, b.reached = false)
      (hcandidates : attempts.map Attempt.candidate = Candidate.rankAudio c.adaptive) :
      Verdict sel videoId c attempts
        (.error (.extractor (.noPlayableStream videoId (shortage c attempts.length))))

/-- No presigned candidate can be played: the adaptive ones are tried. -/
theorem selectRanked_adaptive (videoId : String) {c : Response.Candidates} {s : Session σ}
    (htame : Tame sel access s)
    (hurls : ∀ x ∈ Candidate.rankAudio c.adaptive, ∃ parts, Url.split x.url.toList = .ok parts)
    (hnone : Candidate.rankAudio c.presigned = []) :
    ∃ (attempts : List (Attempt σ)) (r : Except Failure Selection) (s' : Session σ)
      (events : List Event),
      sel.selectRanked access videoId (Ranked.ofCandidates c) s = ⟨r, s', events⟩ ∧
        Course sel access s attempts s' ∧ Verdict sel videoId c attempts r := by
  obtain ⟨attempts, t, s', events, hrun, hcourse, hends⟩ :=
    tryEach_course videoId htame hurls
  have hpresigned : (Ranked.ofCandidates c).presigned = [] := hnone
  have hadaptive : (Ranked.ofCandidates c).adaptive = Candidate.rankAudio c.adaptive := rfl
  suffices h : ∃ r, (∃ events, sel.selectRanked access videoId (Ranked.ofCandidates c) s =
      ⟨r, s', events⟩) ∧ Verdict sel videoId c attempts r by
    obtain ⟨r, ⟨events, hselect⟩, hverdict⟩ := h
    exact ⟨attempts, r, s', events, hselect, hcourse, hverdict⟩
  cases hends with
  | reached passed a hlast hmissed hreached hcandidates =>
    refine ⟨_, ?_, .adaptive passed a hlast hmissed hreached hcandidates⟩
    simp only [selectRanked, hpresigned, hadaptive]
    rw [Action.bind_ok hrun]
    exact ⟨_, rfl⟩
  | exhausted hmissed hcandidates =>
    rcases attempts with _ | ⟨first, others⟩
    · refine ⟨_, ?_, .none (.inl rfl) hmissed hcandidates⟩
      simp only [selectRanked, hpresigned, hadaptive]
      rw [Action.bind_ok hrun]
      exact ⟨_, rfl⟩
    · rcases hallowed : sel.allowUnvalidated with _ | _
      · refine ⟨_, ?_, .none (.inr hallowed) hmissed hcandidates⟩
        simp only [selectRanked, hpresigned, hadaptive]
        rw [Action.bind_ok hrun]
        simp only [List.map_cons, hallowed, Bool.false_eq_true, if_false, List.length_map]
        exact ⟨_, rfl⟩
      · refine ⟨_, ?_, .fallback first others rfl hmissed hallowed hcandidates⟩
        simp only [selectRanked, hpresigned, hadaptive]
        rw [Action.bind_ok hrun]
        simp only [List.map_cons, hallowed, if_true]
        exact ⟨_, rfl⟩

/-- **The tiers of a selection**, for every response whose candidates can be read and whose URLs can
    be split. -/
theorem select_tiers (sel : Selector) (access : Access σ) (s : Session σ) (video : Value)
    {fields : Keyed Value} {c : Response.Candidates} (hfields : video.fieldsOrFault = .ok fields)
    (hc : Response.candidates video = .ok c)
    (hurls : ∀ x ∈ c.adaptive, ∃ parts, Url.split x.url.toList = .ok parts)
    (htame : Tame sel access s) :
    ((∃ x ∈ c.presigned, x.isPlayable = true) →
      ∃ best rest, Candidate.rankAudio c.presigned = best :: rest ∧
        (sel.select access video s).result = .ok (selectionOf best best.url .presigned false) ∧
        (sel.select access video s).state = s) ∧
    ((∀ x ∈ c.presigned, x.isPlayable = false) →
      ∃ attempts, Course sel access s attempts (sel.select access video s).state ∧
        Verdict sel (Response.text fields "videoId") c attempts
          (sel.select access video s).result) := by
  obtain ⟨events, hselect⟩ := select_eq sel access hfields hc s
  rw [hselect]
  constructor
  · rintro ⟨x, hx, hplayable⟩
    rcases hranked : Candidate.rankAudio c.presigned with _ | ⟨best, rest⟩
    · have hin := Candidate.mem_rankAudio.mpr ⟨hx, hplayable⟩
      rw [hranked] at hin
      simp at hin
    · have hfirst : (Ranked.ofCandidates c).presigned = best :: rest := hranked
      obtain ⟨events', hpresigned⟩ :=
        selectRanked_presigned sel access (Response.text fields "videoId") hfirst s
      rw [hpresigned]
      exact ⟨best, rest, rfl, rfl, rfl⟩
  · intro hnone
    have hurls' : ∀ x ∈ Candidate.rankAudio c.adaptive,
        ∃ parts, Url.split x.url.toList = .ok parts :=
      fun x hx => hurls x (Candidate.mem_rankAudio.mp hx).1
    obtain ⟨attempts, r, s', events', hrun, hcourse, hverdict⟩ := selectRanked_adaptive
      (Response.text fields "videoId") htame hurls' (Candidate.rankAudio_eq_nil hnone)
    rw [hrun]
    exact ⟨attempts, hcourse, hverdict⟩

end Selector

/-! ## A session that is always refused -/

/-- A fetcher that is refused everything. -/
def refusing : Fetcher σ where
  request _ w := w
  deliver url w := ⟨.error (.extractor (.unavailable url (some 503) "")), w, []⟩

theorem transform_refused (settings : Settings) {s : Session σ} (hs : s.cache = {}) :
    ∃ s' events, s'.cache = {} ∧ Session.transform settings refusing s =
      ⟨.error (.extractor (.unavailable settings.watchUrl (some 503) "")), s', events⟩ := by
  have hpage : (Session.askForSource settings refusing : Action (Session σ) String) s =
      ⟨.error (.extractor (.unavailable settings.watchUrl (some 503) "")), s, []⟩ := by
    rw [Session.askForSource]
    exact Action.bind_error rfl
  have hget : (Action.get : Action (Session σ) (Session σ)) s = ⟨.ok s, s, []⟩ := rfl
  have hask : (Session.askForPage settings refusing : Action (Session σ) Unit) s =
      ⟨.ok (), s, []⟩ := rfl
  have hscript : (Session.script settings refusing : Action (Session σ) Script) s =
      ⟨.error (.extractor (.unavailable settings.watchUrl (some 503) "")), s, []⟩ := by
    rw [Session.script, Action.bind_ok hget, hs]
    simp only
    rw [Action.bind_ok hask, Action.bind_error hpage]
    rfl
  have hbuilt : (do Session.keepBuild settings (← Session.script settings refusing) :
      Action (Session σ) Transform).attempt s =
      ⟨.ok (.error (.extractor (.unavailable settings.watchUrl (some 503) ""))), s, []⟩ := by
    rw [Action.attempt, Action.bind_error hscript]
  rw [Session.transform, Action.bind_ok hget, hs]
  simp only
  rw [Action.bind_ok hbuilt]
  exact ⟨_, _, rfl, rfl⟩

theorem decodePairs_refused (settings : Settings) (pairs : List Query.Pair) {s : Session σ}
    (hs : s.cache = {}) :
    (∃ decoded, Session.decodePairs settings refusing pairs s = ⟨.ok decoded, s, []⟩) ∨
      ∃ s' events, s'.cache = {} ∧ Session.decodePairs settings refusing pairs s =
        ⟨.error (.extractor (.unavailable settings.watchUrl (some 503) "")), s', events⟩ := by
  induction pairs with
  | nil => exact .inl ⟨[], rfl⟩
  | cons p rest ih =>
    rw [Session.decodePairs]
    by_cases hp : isCiphered settings.param.toList p = true
    · obtain ⟨s', events, hcache, htransform⟩ := transform_refused settings hs
      have hpair : Session.decodePairs.decodePair? settings refusing p s =
          ⟨.error (.extractor (.unavailable settings.watchUrl (some 503) "")), s', events⟩ := by
        rw [Session.decodePairs.decodePair?, if_pos hp]
        exact Action.bind_error htransform
      exact .inr ⟨s', events, hcache, Action.bind_error hpair⟩
    · have hpair : Session.decodePairs.decodePair? settings refusing p s = ⟨.ok p, s, []⟩ := by
        rw [Session.decodePairs.decodePair?, if_neg hp]
        rfl
      rw [Action.bind_ok hpair]
      rcases ih with ⟨decoded, hrest⟩ | ⟨s', events, hcache, hrest⟩
      · refine .inl ⟨p :: decoded, ?_⟩
        rw [Action.bind_ok hrest]
        rfl
      · refine .inr ⟨s', events, hcache, ?_⟩
        rw [Action.bind_error hrest]
        rfl

theorem decipher_refused (settings : Settings) {url : String} {parts : Url}
    (hurl : Url.split url.toList = .ok parts) {s : Session σ} (hs : s.cache = {}) :
    (∀ f, (Session.decipher settings refusing url s).result ≠ .error (.fault f)) ∧
      (Session.decipher settings refusing url s).state.cache = {} := by
  rw [Session.decipher, Action.bind_ok (Action.ofFault_ok hurl s)]
  rcases decodePairs_refused settings (Query.parse parts.query) hs with
    ⟨decoded, hpairs⟩ | ⟨s', events, hcache, hpairs⟩
  · rw [Action.bind_ok hpairs]
    exact ⟨by simp [pure, Action.give], hs⟩
  · rw [Action.bind_error hpairs]
    exact ⟨by simp, hcache⟩

/-- A network on which one URL is reachable; what is probed is noted. -/
def oneReachable (good : String) : Transport (List String) where
  send request w := (.ok { status := if request.url = good then 206 else 403 }, w ++ [request.url])

theorem tame_refusing (sel : Selector) (good : String) (w : List String) :
    Tame sel ⟨oneReachable good, refusing⟩ { world := w } := by
  have hcache : ∀ s', Later sel ⟨oneReachable good, refusing⟩ { world := w } s' →
      s'.cache = {} := by
    intro s' hs'
    induction hs' with
    | now => rfl
    | deciphered _ _ hu ih => exact (decipher_refused _ hu ih).2
    | probed url _ ih => exact ih
  exact ⟨fun s' settings url parts f hs' _ hu => (decipher_refused settings hu (hcache s' hs')).1 f,
    fun s' url f _ => by simp [oneReachable]⟩

/-- A video of two ciphered sounds. -/
def twoSounds : Value :=
  .object [("videoId", .str "v"), ("adaptiveFormats", .list [
    .object [("url", .str "https://h/a?n=x"), ("type", .str "audio/webm; codecs=opus"),
      ("bitrate", .int 2)],
    .object [("url", .str "https://h/b?n=y"), ("type", .str "audio/webm; codecs=opus"),
      ("bitrate", .int 1)]])]

/-- The fields of a record, none if the value is no record. -/
def fieldsOf : Value → Keyed Value
  | .object fields => fields
  | _ => []

/-- The candidates of a video, none if they cannot be read. -/
def candidatesOf (video : Value) : Response.Candidates :=
  match Response.candidates video with
  | .ok c => c
  | .error _ => ⟨[], []⟩

/-- The video has two sounds and no presigned one, so selecting tries them in a course. -/
theorem select_tiers_refused :
    (candidatesOf twoSounds).adaptive.length = 2 ∧
    ∃ attempts, Course {} ⟨oneReachable "https://h/b?n=y", refusing⟩ { world := [] } attempts
        (Selector.select {} ⟨oneReachable "https://h/b?n=y", refusing⟩ twoSounds
          { world := [] }).state ∧
      Selector.Verdict {} "v" (candidatesOf twoSounds) attempts
        (Selector.select {} ⟨oneReachable "https://h/b?n=y", refusing⟩ twoSounds
          { world := [] }).result := by
  have hfields : twoSounds.fieldsOrFault = .ok (fieldsOf twoSounds) := rfl
  have hc : Response.candidates twoSounds = .ok (candidatesOf twoSounds) := rfl
  have hurls : ∀ x ∈ (candidatesOf twoSounds).adaptive,
      ∃ parts, Url.split x.url.toList = .ok parts := by
    intro x hx
    have hsplit : ∀ x ∈ (candidatesOf twoSounds).adaptive,
        (Url.split x.url.toList).toOption.isSome = true := by decide +kernel
    rcases h : Url.split x.url.toList with f | parts
    · have hfault := hsplit x hx
      rw [h] at hfault
      simp [Except.toOption] at hfault
    · exact ⟨parts, rfl⟩
  have hnone : ∀ x ∈ (candidatesOf twoSounds).presigned, x.isPlayable = false := by decide +kernel
  refine ⟨by decide +kernel, ?_⟩
  exact (Selector.select_tiers {} ⟨oneReachable "https://h/b?n=y", refusing⟩ { world := [] }
    twoSounds hfields hc hurls (tame_refusing {} _ [])).2 hnone

end Stream

end StreamResolver
