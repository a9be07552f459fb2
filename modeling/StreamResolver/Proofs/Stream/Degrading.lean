/-
  What can keep a selection from ending as it should.

  A selection should end with a stream or with the announced failure that there is none, whatever the
  other end sends.  Announced failures to get the transform are dealt with; faults are not, and they
  go through to the caller.  As long as every request is answered or refused there are few of them,
  and each has something in the upstream texts to blame (`Culprit`): a media URL or the URL of the
  player script that is malformed, a numeral in the script that is too long to be read, or a matcher
  that the settings give in place of the default ones.

  What was read in earlier states has to be known in later ones: the script that a session keeps was
  kept from the start or read on the way.  This is the invariant of all parts of a selection
  (`Informed`), and along their texts it gives the contract of each (`transform_keepsTo`) and the
  grounds of the whole (`grounds_informed`).
-/
import StreamResolver.Proofs.Cipher.Faults
import StreamResolver.Proofs.Stream.Origin

namespace StreamResolver

/-! ## Responses that can be read -/

namespace Response

open Fallible

/-- No number of a format is infinite. -/
def IsFinite (format : Keyed Value) : Prop :=
  ∀ key negative, format.get? key ≠ some (.float (.infinity negative))

/-- Formats that are left out, or are given in a list and hold finite numbers. -/
def AreFinite (formats : Option Value) : Prop :=
  ∀ v, formats = some v → ∃ items, v = .list items ∧ ∀ format, .object format ∈ items → IsFinite format

/-- A video with fields whose formats are finite. -/
def HasFiniteFormats (video : Value) : Prop :=
  ∃ fields : Keyed Value, video = .object fields ∧ AreFinite (fields.get? "formatStreams") ∧
    AreFinite (fields.get? "adaptiveFormats")

theorem count_ne_error {format : Keyed Value} (h : IsFinite format) (key : String) (f : Fault) :
    count format key ≠ .error f := by
  intro hcount
  unfold count at hcount
  rcases hfield : format.get? key with _ | v
  · rw [hfield] at hcount
    cases hcount
  · rw [hfield, Option.getD_some] at hcount
    unfold Value.count at hcount
    split at hcount
    case h_3 => exact h key _ hfield
    all_goals cases hcount

theorem firstPositive_ne_error {format : Keyed Value} (h : IsFinite format) (keys : List String)
    (f : Fault) : firstPositive format keys ≠ .error f := by
  induction keys with
  | nil =>
    intro hnone
    cases hnone
  | cons key rest ih =>
    intro hfirst
    rcases of_bind_eq_error hfirst with hcount | ⟨n, -, hfirst⟩
    · exact count_ne_error h key f hcount
    · split at hfirst
      · cases hfirst
      · exact ih hfirst

theorem candidate?_ne_error {presigned : Bool} {format : Keyed Value} (h : IsFinite format) (f : Fault) :
    candidate? presigned format ≠ .error f := by
  intro hcandidate
  unfold candidate? at hcandidate
  split at hcandidate
  · split at hcandidate
    · cases hcandidate
    · rcases of_bind_eq_error hcandidate with hbitrate | ⟨rate, -, hcandidate⟩
      · exact firstPositive_ne_error h _ f hbitrate
      · cases hcandidate
  · cases hcandidate

theorem objects_finite {formats : Option Value} (h : AreFinite formats) :
    ∃ fs, Value.objects formats = .ok fs ∧ ∀ format ∈ fs, IsFinite format := by
  rcases formats with _ | v
  · exact ⟨[], rfl, by simp⟩
  · obtain ⟨items, rfl, hitems⟩ := h v rfl
    unfold Value.objects Value.elements Value.nonVoid?
    rcases items with _ | ⟨item, items⟩
    · exact ⟨[], rfl, by simp⟩
    · refine ⟨_, rfl, fun format hformat => ?_⟩
      obtain ⟨x, hx, hfields⟩ := List.mem_filterMap.mp hformat
      unfold Value.fields? at hfields
      split at hfields
      · cases hfields
        exact hitems _ hx
      · cases hfields

theorem candidatesOf_ne_error {presigned : Bool} {formats : Option Value} (h : AreFinite formats)
    (f : Fault) : candidatesOf presigned formats ≠ .error f := by
  intro hcandidates
  obtain ⟨fs, hfs, hfinite⟩ := objects_finite h
  rcases of_bind_eq_error hcandidates with hobjects | ⟨fs', hobjects, hcandidates⟩
  · rw [hfs] at hobjects
    cases hobjects
  · rw [hfs] at hobjects
    cases hobjects
    rcases of_bind_eq_error hcandidates with hread | ⟨read, -, hcandidates⟩
    · obtain ⟨format, hformat, hcandidate⟩ := exists_of_mapM_eq_error hread
      exact candidate?_ne_error (hfinite format hformat) f hcandidate
    · cases hcandidates

/-- **The candidates can be read** if the formats are finite. -/
theorem candidates_ok {video : Value} (h : HasFiniteFormats video) :
    ∃ c, candidates video = .ok c := by
  obtain ⟨fields, rfl, hpresigned, hadaptive⟩ := h
  rcases hc : candidates (.object fields) with f | c
  · rcases of_bind_eq_error hc with hfields | ⟨fields', hfields, hc⟩
    · cases hfields
    cases hfields
    rcases of_bind_eq_error hc with hfirst | ⟨presigned, -, hc⟩
    · exact absurd hfirst (candidatesOf_ne_error hpresigned f)
    rcases of_bind_eq_error hc with hsecond | ⟨adaptive, -, hc⟩
    · exact absurd hsecond (candidatesOf_ne_error hadaptive f)
    · cases hc
  · exact ⟨c, rfl⟩

end Response

namespace Stream

open Network Cipher

variable {σ : Type}

/-! ## The world of a selection -/

/-- The worlds that selecting can come to. -/
inductive Reached (sel : Selector) (access : Access σ) (start : σ) : σ → Prop where
  | now : Reached sel access start start
  | asked {w : σ} (url : String) (h : Reached sel access start w) :
      Reached sel access start (access.fetcher.request url w)
  | delivered {w : σ} (url : String) (h : Reached sel access start w) :
      Reached sel access start (access.fetcher.deliver url w).state
  | probed {w : σ} (url : String) (h : Reached sel access start w) :
      Reached sel access start
        (access.transport.send (.probe url sel.probe.timeout sel.probe.allHeaders) w).2

/-- Every text that is asked for is served or refused, and so is every probe. -/
structure Answers (sel : Selector) (access : Access σ) (start : σ) : Prop where
  texts : ∀ w url f, Reached sel access start w →
    (access.fetcher.deliver url w).result ≠ .error (.fault f)
  probes : ∀ w url f, Reached sel access start w →
    (access.transport.send (.probe url sel.probe.timeout sel.probe.allHeaders) w).1 ≠
      .error (.fault f)

/-- A text that is served at a URL in a world that selecting can come to. -/
def Served (sel : Selector) (access : Access σ) (start : σ) (url text : String) : Prop :=
  ∃ w, Reached sel access start w ∧ (access.fetcher.deliver url w).result = .ok text

/-- The scripts of a session: the one that it keeps, and those that are served. -/
def Available (sel : Selector) (access : Access σ) (s : Session σ) (script : Script) : Prop :=
  s.cache.script = some script ∨ Served sel access s.world script.url script.source

/-- What a selection cannot deal with. -/
inductive Culprit (sel : Selector) (access : Access σ) (s : Session σ) (video : Value) :
    Fault → Prop where
  /-- The URL of a playable candidate is malformed. -/
  | link {c : Response.Candidates} {x : Candidate} (hcipher : sel.cipher.isSome = true)
      (hc : Response.candidates video = .ok c) (hx : x ∈ Candidate.rankAudio c.adaptive)
      (hurl : Url.split x.url.toList = .error .malformedUrl) :
      Culprit sel access s video .malformedUrl
  /-- The watch page names a script whose URL is malformed. -/
  | reference {settings : Settings} {page : String} {found : Located}
      (hcipher : sel.cipher = some settings)
      (hpage : Served sel access s.world settings.watchUrl page)
      (hfound : (locate page .playerScriptUrl (settings.patterns.matchersFor .playerScriptUrl)
        []).value = .ok found)
      (hjoin : Url.join settings.playerBase.toList (scriptReference found) =
        .error .malformedUrl) : Culprit sel access s video .malformedUrl
  /-- A numeral in the script is too long to be read. -/
  | numeral {script : Script} (hcipher : sel.cipher.isSome = true)
      (hscript : Available sel access s script) (h : HasLongNumeral script.source.toList) :
      Culprit sel access s video .unreadableNumeral
  /-- A matcher of the settings faults on the watch page or on the script. -/
  | matcher {settings : Settings} {text : String} {f : Fault}
      (hcipher : sel.cipher = some settings)
      (htext : Served sel access s.world settings.watchUrl text ∨
        ∃ script, Available sel access s script ∧ script.source = text)
      (h : GivenFaults settings.patterns text f) : Culprit sel access s video f

/-- What holds in all states of a selection: the world was come to, and a kept script is available
    from the start. -/
structure Informed (sel : Selector) (access : Access σ) (s s' : Session σ) : Prop where
  reached : Reached sel access s.world s'.world
  kept : ∀ script, s'.cache.script = some script → Available sel access s script

/-- A failure is announced, or there is something to blame. -/
def Blames (sel : Selector) (access : Access σ) (s : Session σ) (video : Value) (e : Failure) : Prop :=
  ∀ f, e = .fault f → Culprit sel access s video f

/-! ## The contracts of a session -/

section

variable {sel : Selector} {access : Access σ} {s : Session σ} {video : Value} {settings : Settings}
  {E : Failure → Prop}

theorem request_keepsTo (url : String) :
    (Session.onWorld (.modify (access.fetcher.request url)) : Action (Session σ) Unit).KeepsTo
      (Informed sel access s) (fun _ => True) E := by
  refine Action.keepsTo_onPart fun s' hs' => ⟨⟨hs'.reached.asked url, hs'.kept⟩, fun _ _ => trivial,
    fun e he => ?_⟩
  cases he

/-- What is delivered is served. -/
theorem deliver_keepsTo (hanswers : Answers sel access s.world) (url : String) :
    (Session.onWorld (access.fetcher.deliver url)).KeepsTo (Informed sel access s)
      (Served sel access s.world url) (Blames sel access s video) := by
  refine Action.keepsTo_onPart fun s' hs' => ⟨⟨hs'.reached.delivered url, hs'.kept⟩,
    fun text htext => ⟨s'.world, hs'.reached, htext⟩, fun e he f hf => ?_⟩
  rw [hf] at he
  exact absurd he (hanswers.texts s'.world url f hs'.reached)

theorem askForSource_keepsTo (hanswers : Answers sel access s.world)
    (hcipher : sel.cipher = some settings) :
    (Session.askForSource settings access.fetcher).KeepsTo (Informed sel access s) (fun _ => True)
      (Blames sel access s video) := by
  refine (deliver_keepsTo hanswers settings.watchUrl).bind fun page hpage => ?_
  have hurl : (Action.ofReporting (scriptUrl settings page) : Action (Session σ) String).KeepsTo
      (Informed sel access s) (fun _ => True) (Blames sel access s video) := by
    refine Action.keepsTo_ofReporting ((scriptUrl_endsWith settings page).weaken (fun _ h => h)
      fun e he f hf => ?_)
    -- the page that is to blame is the one that was just served
    rcases he f hf with hgiven | ⟨rfl, found, hfound, hjoin⟩
    · exact .matcher hcipher (.inl hpage) hgiven
    · exact .reference hcipher hpage hfound hjoin
  refine hurl.bind fun url _ => (request_keepsTo url).bind fun _ _ => Action.keepsTo_pure trivial

theorem keepScript_keepsTo (hanswers : Answers sel access s.world) (url : String) :
    (Session.keepScript access.fetcher url).KeepsTo (Informed sel access s)
      (Available sel access s) (Blames sel access s video) := by
  refine (deliver_keepsTo hanswers url).bind fun source hsource => ?_
  have havailable : Available sel access s ⟨url, source⟩ := .inr hsource
  refine (Action.keepsTo_modify fun s' hs' => ⟨hs'.reached, fun script hscript => ?_⟩).bind
    fun _ _ => (Action.keepsTo_emit _ _ _).bind fun _ _ => Action.keepsTo_pure havailable
  cases hscript
  exact havailable

/-- The script that a session gets is available. -/
theorem script_keepsTo (hanswers : Answers sel access s.world)
    (hcipher : sel.cipher = some settings) :
    (Session.script settings access.fetcher).KeepsTo (Informed sel access s)
      (Available sel access s) (Blames sel access s video) := by
  refine Action.keepsTo_get.bind fun s' hs' => ?_
  split
  · next script hscript => exact Action.keepsTo_pure (hs'.kept script hscript)
  · refine (request_keepsTo settings.watchUrl).bind fun _ _ => ?_
    exact (askForSource_keepsTo hanswers hcipher).bind fun url _ => keepScript_keepsTo hanswers url

theorem keepBuild_keepsTo (hcipher : sel.cipher = some settings) {script : Script}
    (hscript : Available sel access s script) :
    (Session.keepBuild settings script : Action (Session σ) Transform).KeepsTo
      (Informed sel access s) (fun _ => True) (Blames sel access s video) := by
  have hbuild : (Action.ofReporting (buildFrom settings.patterns script) :
      Action (Session σ) Build).KeepsTo (Informed sel access s) (fun _ => True)
        (Blames sel access s video) := by
    refine Action.keepsTo_ofReporting ((buildFrom_endsWith settings.patterns script).weaken
      (fun _ h => h) fun e he f hf => ?_)
    cases he f hf with
    | given h => exact .matcher hcipher (.inr ⟨script, hscript, rfl⟩) h
    | numeral h => exact .numeral (by rw [hcipher]; rfl) hscript h
  refine hbuild.bind fun build _ => ?_
  refine (Action.keepsTo_modify fun s' hs' => ⟨hs'.reached, hs'.kept⟩).bind fun _ _ => ?_
  exact (Action.keepsTo_emit _ _ _).bind fun _ _ => Action.keepsTo_pure trivial

theorem abandon_keepsTo (e : Failure) : (Session.abandon e : Action (Session σ) Unit).KeepsTo
    (Informed sel access s) (fun _ => True) E := by
  have hcleared : (Action.modify Session.clear : Action (Session σ) Unit).KeepsTo
      (Informed sel access s) (fun _ => True) E := by
    refine Action.keepsTo_modify fun s' hs' => ⟨hs'.reached, fun script hscript => ?_⟩
    cases hscript
  refine hcleared.bind fun _ _ => ?_
  split
  · exact Action.keepsTo_emit _ _ _
  · exact Action.keepsTo_pure trivial

/-- **Getting the transform** only faults with something to blame. -/
theorem transform_keepsTo (hanswers : Answers sel access s.world)
    (hcipher : sel.cipher = some settings) :
    (Session.transform settings access.fetcher).KeepsTo (Informed sel access s) (fun _ => True)
      (Blames sel access s video) := by
  refine Action.keepsTo_get.bind fun s' _ => ?_
  split
  · exact Action.keepsTo_pure trivial
  · have hscript : (Session.script settings access.fetcher).KeepsTo (Informed sel access s)
        (Available sel access s) (Blames sel access s video) := script_keepsTo hanswers hcipher
    have hbuilt := hscript.bind fun script havailable => keepBuild_keepsTo hcipher havailable
    refine hbuilt.attempt.bind fun r hr => ?_
    -- a build that failed is given up, and its failure goes on to the caller
    rcases r with e | t
    · exact (abandon_keepsTo e).bind fun _ _ => Action.keepsTo_fail (hr.2 e rfl)
    · exact Action.keepsTo_pure trivial

/-- A probe is answered or refused. -/
theorem probe_keepsTo (hanswers : Answers sel access s.world) (url : String) :
    (Session.onWorld (sel.probe.reaches access.transport url)).KeepsTo (Informed sel access s)
      (fun _ => True) E := by
  refine Action.keepsTo_onPart fun s' hs' => ?_
  have hprobed := hs'.reached.probed url
  have hanswered := fun f => hanswers.probes s'.world url f hs'.reached
  unfold Probe.reaches
  rcases hsend : access.transport.send (.probe url sel.probe.timeout sel.probe.allHeaders) s'.world
    with ⟨(_ | detail | f) | answer, w⟩
  · rw [hsend] at hprobed
    exact ⟨⟨hprobed, hs'.kept⟩, fun _ _ => trivial, fun e he => by cases he⟩
  · rw [hsend] at hprobed
    exact ⟨⟨hprobed, hs'.kept⟩, fun _ _ => trivial, fun e he => by cases he⟩
  · rw [hsend] at hanswered
    exact absurd rfl (hanswered f)
  · rw [hsend] at hprobed
    dsimp only
    split
    · exact ⟨⟨hprobed, hs'.kept⟩, fun _ _ => trivial, fun e he => by cases he⟩
    · exact ⟨⟨hprobed, hs'.kept⟩, fun _ _ => trivial, fun e he => by cases he⟩

/-- How a selection may fail: there is no stream, or there is something to blame for a fault. -/
def Degrades (sel : Selector) (access : Access σ) (s : Session σ) (video : Value) :
    Failure → Prop
  | .extractor e => ∃ videoId counts, e = .noPlayableStream videoId counts
  | .fault f => Culprit sel access s video f

theorem grounds_informed (hanswers : Answers sel access s.world) {c : Response.Candidates}
    (hc : Response.candidates video = .ok c) :
    Grounds sel access (Candidate.rankAudio c.adaptive) (Informed sel access s)
      (Degrades sel access s video) where
  transform _ hcipher := transform_keepsTo hanswers hcipher
  link x hx settings f hcipher hurl := by
    obtain rfl := Url.splitWith_eq_error hurl
    exact .link (by rw [hcipher]; rfl) hc hx hurl
  probe url := probe_keepsTo hanswers url
  shortage videoId counts := ⟨videoId, counts, rfl⟩

end

/-- **Selecting degrades**: for every response with finite formats and whatever is served, a selection
    gives a stream or is announced to find none, unless there is something to blame. -/
theorem select_degrades (sel : Selector) (access : Access σ) (s : Session σ) (video : Value)
    (hvideo : Response.HasFiniteFormats video) (hanswers : Answers sel access s.world) :
    (∃ r, (sel.select access video s).result = .ok r) ∨
      (∃ videoId counts, (sel.select access video s).result =
        .error (.extractor (.noPlayableStream videoId counts))) ∨
      ∃ f, (sel.select access video s).result = .error (.fault f) ∧
        Culprit sel access s video f := by
  obtain ⟨c, hc⟩ := Response.candidates_ok hvideo
  have hcontract : (sel.select access video).KeepsTo (Informed sel access s)
      (fun r => ∃ c, Response.candidates video = .ok c ∧ Origin sel c r)
      (Degrades sel access s video) := by
    refine Selector.select_keepsTo (fun f hf => ?_) fun c' hc' => grounds_informed hanswers hc'
    rw [hc] at hf
    cases hf
  -- at the start nothing was asked for, and a kept script was kept from the start
  have hstart : Informed sel access s s := ⟨.now, fun script hscript => .inl hscript⟩
  obtain ⟨-, -, hfails⟩ := hcontract s hstart
  rcases hresult : (sel.select access video s).result with (e | f) | r
  · obtain ⟨videoId, counts, rfl⟩ := hfails _ hresult
    exact .inr (.inl ⟨videoId, counts, rfl⟩)
  · exact .inr (.inr ⟨f, rfl, hfails _ hresult⟩)
  · exact .inl ⟨r, rfl⟩

/-- A video with one sound, whose URL has a bracket that is not closed. -/
def bracketSound : Value :=
  .object [("videoId", .str "v"), ("adaptiveFormats", .list [
    .object [("url", .str "http://["), ("type", .str "audio/webm; codecs=opus"),
      ("bitrate", .int 1)]])]

/-- The network on which that URL is reachable, and nothing can be read. -/
def bracketAccess : Access (List String) := ⟨oneReachable "http://[", refusing⟩

/-- Every request is answered or refused, and still nothing is selected: the URL is to blame. -/
theorem select_degrades_bracket :
    Response.HasFiniteFormats bracketSound ∧ Answers {} bracketAccess [] ∧
      (Selector.select {} bracketAccess bracketSound { world := [] }).result =
        .error (.fault .malformedUrl) ∧
      Culprit {} bracketAccess { world := [] } bracketSound .malformedUrl := by
  have hvideo : Response.HasFiniteFormats bracketSound := by
    refine ⟨_, rfl, fun v hv => ?_, fun v hv => ?_⟩
    · cases hv
    · cases hv
      refine ⟨_, rfl, fun format hformat key negative hfield => ?_⟩
      obtain rfl : format = _ := by simpa using hformat
      simp only [Keyed.get?] at hfield
      split at hfield
      · cases hfield
      split at hfield
      · cases hfield
      split at hfield <;> cases hfield
  have hanswers : Answers {} bracketAccess [] := by
    refine ⟨fun w url f _ h => ?_, fun w url f _ h => ?_⟩
    · cases h
    · cases h
  have hrun : (Selector.select {} bracketAccess bracketSound { world := [] }).result =
      .error (.fault .malformedUrl) := by
    decide +kernel
  refine ⟨hvideo, hanswers, hrun, ?_⟩
  rcases select_degrades {} bracketAccess { world := [] } bracketSound hvideo hanswers with
    ⟨r, hr⟩ | ⟨videoId, counts, hr⟩ | ⟨f, hr, hculprit⟩
  · rw [hrun] at hr
    cases hr
  · rw [hrun] at hr
    cases hr
  · rw [hrun] at hr
    cases hr
    exact hculprit

end Stream

end StreamResolver
