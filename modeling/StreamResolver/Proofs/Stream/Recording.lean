/-
  A selection that is recorded.

  A selection only touches its world through the network and the fetcher.  So when one world is a view
  of another, and both agree on the view (`Access.Mirrors`), the selection over the richer world is the
  selection over the view (`mirrors_select`).  The richer world here has a record of the exchanges
  that were made by the network, in order, and of nothing else: recording changes no selection
  (`select_recording`).

  What stands in the record is known from the attempts: the selector makes one exchange for each, and
  deciphering makes none (`Course.exchanges_eq`).  For the latter the same principle is used the other
  way round: with its record left as it is, the recorded world is the view, and the bare one is
  the richer one.
-/
import StreamResolver.Proofs.Cipher.MediaUrl
import StreamResolver.Proofs.Cipher.World
import StreamResolver.Proofs.Stream.Tiers

namespace StreamResolver

/-! ## One caller at a time, over two worlds -/

namespace Cipher.Session

variable {σ τ : Type} {view : τ → σ}

theorem mirrors_fail {α : Type} (e : Failure) :
    Mirrors view (Action.fail e : Action (Session τ) α) (Action.fail e) := fun _ => rfl

theorem mirrors_ofFault {α : Type} (r : Except Fault α) :
    Mirrors view (Action.ofFault r) (Action.ofFault r) := fun _ => rfl

theorem mirrors_attempt {α : Type} {p' : Action (Session τ) α} {p : Action (Session σ) α}
    (hp : Mirrors view p' p) : Mirrors view p'.attempt p.attempt := by
  intro s
  rw [Action.attempt, Action.attempt, hp s]

/-- What is done may depend on the state, as far as the view shows it. -/
theorem mirrors_get {α : Type} {p' : Session τ → Action (Session τ) α}
    {p : Session σ → Action (Session σ) α}
    (hp : ∀ s, Mirrors view (p' s) (p (s.mapWorld view))) :
    Mirrors view (Action.get >>= p') (Action.get >>= p) := by
  intro s
  rw [Action.bind_ok (get_eq _), Action.bind_ok (get_eq s), hp s s]

variable {f' : Fetcher τ} {f : Fetcher σ} (h : f'.Mirrors f view)
include h

theorem mirrors_script (settings : Settings) :
    Mirrors view (script settings f') (script settings f) := by
  refine mirrors_get fun s => ?_
  rw [mapWorld]
  rcases s.cache.script with _ | kept
  · exact mirrors_bind (mirrors_askForPage h settings) fun _ =>
      mirrors_bind (mirrors_askForSource h settings) fun url => mirrors_keepScript h url
  · exact mirrors_pure kept

theorem mirrors_transform (settings : Settings) :
    Mirrors view (transform settings f') (transform settings f) := by
  have hbuild : Mirrors view (do keepBuild settings (← script settings f'))
      (do keepBuild settings (← script settings f)) :=
    mirrors_bind (mirrors_script h settings) fun script => mirrors_keepBuild settings script
  refine mirrors_get fun s => ?_
  rw [mapWorld]
  rcases s.cache.transform with _ | kept
  · refine mirrors_bind (mirrors_attempt hbuild) fun r => ?_
    rcases r with e | t
    · exact mirrors_bind (mirrors_abandon e) fun _ => mirrors_fail e
    · exact mirrors_pure t
  · exact mirrors_pure kept

theorem mirrors_decodePairs (settings : Settings) (pairs : List Query.Pair) :
    Mirrors view (decodePairs settings f' pairs) (decodePairs settings f pairs) := by
  induction pairs with
  | nil => exact mirrors_pure []
  | cons p rest ih =>
    have hpair : Mirrors view (decodePairs.decodePair? settings f' p)
        (decodePairs.decodePair? settings f p) := by
      unfold decodePairs.decodePair?
      split
      · exact mirrors_bind (mirrors_transform h settings) fun _ => mirrors_pure _
      · exact mirrors_pure p
    exact mirrors_bind hpair fun _ => mirrors_bind ih fun _ => mirrors_pure _

/-- Deciphering over two worlds. -/
theorem mirrors_decipher (settings : Settings) (url : String) :
    Mirrors view (decipher settings f' url) (decipher settings f url) :=
  mirrors_bind (mirrors_ofFault _) fun parts =>
    mirrors_bind (mirrors_decodePairs h settings (Query.parse parts.query)) fun _ => mirrors_pure _

end Cipher.Session

namespace Stream

open Network Cipher
open Session (mirrors_bind mirrors_pure mirrors_emit mirrors_fail mirrors_ofFault mirrors_attempt
  mirrors_decipher)

variable {σ τ : Type}

/-! ## A selection over two worlds -/

/-- One access does to a world what the other does to the view of it. -/
structure Access.Mirrors (access' : Access τ) (access : Access σ) (view : τ → σ) : Prop where
  fetcher : access'.fetcher.Mirrors access.fetcher view
  send : ∀ request w, access.transport.send request (view w) =
    ((access'.transport.send request w).1, view (access'.transport.send request w).2)

namespace Selector

variable {view : τ → σ}

theorem mirrors_choose (videoId : String) (c : Candidate) (url : String) (tier : Tier)
    (validated : Bool) : Session.Mirrors view (choose videoId c url tier validated)
      (choose videoId c url tier validated) :=
  mirrors_bind (mirrors_emit _ _ _) fun _ => mirrors_pure _

theorem mirrors_giveUp (videoId : String) (ranked : Ranked) (tried : Nat) :
    Session.Mirrors view (giveUp videoId ranked tried) (giveUp videoId ranked tried) :=
  mirrors_bind (mirrors_emit _ _ _) fun _ => mirrors_fail _

variable {access' : Access τ} {access : Access σ} (h : access'.Mirrors access view)
include h

theorem mirrors_reaches (probe : Probe) (url : String) :
    Session.Mirrors view (Session.onWorld (probe.reaches access'.transport url))
      (Session.onWorld (probe.reaches access.transport url)) := by
  intro s
  have hsend := h.send (.probe url probe.timeout probe.allHeaders) s.world
  rcases hsend' : access'.transport.send (.probe url probe.timeout probe.allHeaders) s.world
    with ⟨exchange, w⟩
  rw [hsend'] at hsend
  unfold Session.onWorld Action.onPart Probe.reaches
  simp only [Session.mapWorld, hsend, hsend']
  rcases exchange with (_ | detail | f) | answer
  · rfl
  · rfl
  · rfl
  · simp only
    split <;> rfl

theorem mirrors_decoded (sel : Selector) (videoId url : String) :
    Session.Mirrors view (sel.decoded access' videoId url) (sel.decoded access videoId url) := by
  unfold decoded
  rcases sel.cipher with _ | settings
  · exact mirrors_pure _
  refine mirrors_bind (mirrors_ofFault _) fun carries => ?_
  rcases carries with _ | _
  · exact mirrors_pure _
  refine mirrors_bind (mirrors_attempt (mirrors_decipher h.fetcher settings url)) fun r => ?_
  rcases r with (e | f) | deciphered
  · exact mirrors_bind (mirrors_emit _ _ _) fun _ => mirrors_pure _
  · exact mirrors_fail _
  · exact mirrors_pure _

theorem mirrors_tryEach (sel : Selector) (videoId : String) (broken : Bool)
    (tried : List (Candidate × String)) (rest : List Candidate) :
    Session.Mirrors view (sel.tryEach access' videoId broken tried rest)
      (sel.tryEach access videoId broken tried rest) := by
  induction rest generalizing broken tried with
  | nil => exact mirrors_pure _
  | cons c rest ih =>
    have hready : Session.Mirrors view (ready sel access' videoId broken c)
        (ready sel access videoId broken c) := by
      unfold ready
      split
      · exact mirrors_pure _
      · exact mirrors_decoded h sel videoId c.url
    rw [tryEach_eq, tryEach_eq]
    refine mirrors_bind hready fun p => mirrors_bind (mirrors_reaches h sel.probe p.1) fun reached => ?_
    rcases reached with _ | _
    · exact mirrors_bind (mirrors_emit _ _ _) fun _ => ih p.2 _
    · exact mirrors_pure _

theorem mirrors_selectRanked (sel : Selector) (videoId : String) (ranked : Ranked) :
    Session.Mirrors view (sel.selectRanked access' videoId ranked)
      (sel.selectRanked access videoId ranked) := by
  unfold selectRanked
  rcases ranked.presigned with _ | ⟨best, others⟩
  · refine mirrors_bind (mirrors_tryEach h sel videoId false [] ranked.adaptive) fun t => ?_
    rcases t with ⟨c, url⟩ | _ | ⟨⟨c, url⟩, others⟩
    · exact mirrors_choose videoId c url .adaptive true
    · exact mirrors_giveUp videoId ranked 0
    · simp only
      split
      · exact mirrors_bind (mirrors_emit _ _ _) fun _ => mirrors_choose videoId c url .fallback false
      · exact mirrors_giveUp videoId ranked _
  · exact mirrors_choose videoId best best.url .presigned false

/-- **A selection over two worlds** is the same selection. -/
theorem mirrors_select (sel : Selector) (video : Value) :
    Session.Mirrors view (sel.select access' video) (sel.select access video) :=
  mirrors_bind (mirrors_ofFault _) fun _ => mirrors_bind (mirrors_ofFault _) fun _ =>
    mirrors_bind (mirrors_emit _ _ _) fun _ => mirrors_selectRanked h sel _ _

end Selector

/-! ## The record -/

/-- A world with a record of the exchanges that were made, the oldest first. -/
structure Recorded (σ : Type) where
  world : σ
  exchanges : List (Request × Exchange)

/-- The same access, with a record of what the network does. -/
def Access.recording (access : Access σ) : Access (Recorded σ) where
  transport :=
    { send := fun request w =>
        let (exchange, world) := access.transport.send request w.world
        (exchange, ⟨world, w.exchanges ++ [(request, exchange)]⟩) }
  fetcher :=
    { request := fun url w => { w with world := access.fetcher.request url w.world }
      deliver := fun url w =>
        let o := access.fetcher.deliver url w.world
        ⟨o.result, { w with world := o.state }, o.events⟩ }

theorem Access.recording_mirrors (access : Access σ) :
    access.recording.Mirrors access Recorded.world where
  fetcher := ⟨fun _ _ => rfl, fun _ _ => rfl⟩
  send _ _ := rfl

/-- With the record left alone, the bare fetcher does what the recording one does. -/
theorem Access.mirrors_recording (access : Access σ) (exchanges : List (Request × Exchange)) :
    access.fetcher.Mirrors access.recording.fetcher fun w => ⟨w, exchanges⟩ where
  request _ _ := rfl
  deliver _ _ := rfl

/-- The session with an empty record. -/
def recorded (s : Session σ) : Session (Recorded σ) := s.mapWorld fun w => ⟨w, []⟩

/-- The exchanges that the network makes during a selection, in order. -/
def Selector.exchanges (sel : Selector) (access : Access σ) (video : Value) (s : Session σ) :
    List (Request × Exchange) :=
  (sel.select access.recording video (recorded s)).state.world.exchanges

/-- Recording changes no selection. -/
theorem Selector.select_recording (sel : Selector) (access : Access σ) (video : Value)
    (s : Session σ) : sel.select access video s =
      let o := sel.select access.recording video (recorded s)
      ⟨o.result, o.state.mapWorld Recorded.world, o.events⟩ :=
  mirrors_select access.recording_mirrors sel video (recorded s)

/-- Deciphering makes no exchange, and goes as it goes without a record. -/
theorem decipher_recording (access : Access σ) (settings : Settings) (url : String)
    (s : Session (Recorded σ)) : Session.decipher settings access.recording.fetcher url s =
      let o := Session.decipher settings access.fetcher url (s.mapWorld Recorded.world)
      ⟨o.result, o.state.mapWorld fun w => ⟨w, s.world.exchanges⟩, o.events⟩ :=
  mirrors_decipher (access.mirrors_recording s.world.exchanges) settings url
    (s.mapWorld Recorded.world)

variable {sel : Selector} {access : Access σ}

theorem Later.unrecorded {s₀ s : Session (Recorded σ)} (h : Later sel access.recording s₀ s) :
    Later sel access (s₀.mapWorld Recorded.world) (s.mapWorld Recorded.world) := by
  induction h with
  | now => exact .now
  | deciphered _ hc hu ih =>
    rw [decipher_recording]
    exact ih.deciphered hc hu
  | probed url _ ih => exact ih.probed url

/-- What holds of the other end holds of it when it is recorded. -/
theorem Tame.recording {s : Session σ} (h : Tame sel access s) :
    Tame sel access.recording (recorded s) where
  announced s' settings url parts f hs' hc hu := by
    rw [decipher_recording]
    exact h.announced _ settings url parts f hs'.unrecorded hc hu
  answered s' url f hs' := h.answered _ url f hs'.unrecorded

/-! ## The record of a course -/

namespace Attempt

/-- The exchange of an attempt. -/
def exchanged (sel : Selector) (a : Attempt σ) : Request × Exchange :=
  (.probe a.url sel.probe.timeout sel.probe.allHeaders, a.exchange)

/-- The attempt without the record. -/
def unrecorded (a : Attempt (Recorded σ)) : Attempt σ where
  candidate := a.candidate
  before := a.before.mapWorld Recorded.world
  decoding := a.decoding
  ready := a.ready.mapWorld Recorded.world
  exchange := a.exchange
  after := a.after.mapWorld Recorded.world

theorem map_candidate_unrecorded (attempts : List (Attempt (Recorded σ))) :
    (attempts.map unrecorded).map candidate = attempts.map candidate := List.map_map

theorem missed_unrecorded {attempts : List (Attempt (Recorded σ))}
    (h : ∀ a ∈ attempts, a.reached = false) :
    ∀ a ∈ attempts.map unrecorded, a.reached = false := by
  intro a ha
  obtain ⟨b, hb, rfl⟩ := List.mem_map.mp ha
  exact h b hb

theorem Follows.unrecorded {earlier : List (Attempt (Recorded σ))} {s : Session (Recorded σ)}
    {a : Attempt (Recorded σ)} (h : a.Follows sel access.recording earlier s) :
    a.unrecorded.Follows sel access (earlier.map Attempt.unrecorded) (s.mapWorld Recorded.world) where
  before_eq := congrArg (Session.mapWorld Recorded.world) h.before_eq
  decodes := by
    rw [List.any_map]
    exact h.decodes
  decoded r hr := by
    obtain ⟨settings, hcipher, hresult, hstate⟩ := h.decoded r hr
    rw [decipher_recording] at hresult hstate
    exact ⟨settings, hcipher, hresult, congrArg (Session.mapWorld Recorded.world) hstate⟩
  raw hnone := congrArg (Session.mapWorld Recorded.world) (h.raw hnone)
  probed := by
    have hsend := access.recording_mirrors.send
      (.probe a.url sel.probe.timeout sel.probe.allHeaders) a.ready.world
    rw [h.probed] at hsend
    exact hsend
  cache_kept := h.cache_kept

/-- An attempt adds one exchange to the record. -/
theorem Follows.exchanges_eq {earlier : List (Attempt (Recorded σ))} {s : Session (Recorded σ)}
    {a : Attempt (Recorded σ)} (h : a.Follows sel access.recording earlier s) :
    a.after.world.exchanges = s.world.exchanges ++ [a.unrecorded.exchanged sel] := by
  have hready : a.ready.world.exchanges = s.world.exchanges := by
    rcases hdecoding : a.decoding with _ | r
    · rw [h.raw hdecoding]
    · obtain ⟨settings, -, -, hstate⟩ := h.decoded r hdecoding
      rw [decipher_recording] at hstate
      rw [← hstate]
      rfl
  have hsent : (access.recording.transport.send
      (.probe a.url sel.probe.timeout sel.probe.allHeaders) a.ready.world).2.exchanges =
      a.ready.world.exchanges ++ [(.probe a.url sel.probe.timeout sel.probe.allHeaders,
        (access.recording.transport.send
          (.probe a.url sel.probe.timeout sel.probe.allHeaders) a.ready.world).1)] := rfl
  rw [h.probed, hready] at hsent
  exact hsent

end Attempt

theorem Course.unrecorded {s s' : Session (Recorded σ)} {attempts : List (Attempt (Recorded σ))}
    (h : Course sel access.recording s attempts s') :
    Course sel access (s.mapWorld Recorded.world) (attempts.map Attempt.unrecorded)
      (s'.mapWorld Recorded.world) := by
  induction h with
  | start => exact .start
  | next _ ha ih =>
    rw [List.map_append]
    exact ih.next ha.unrecorded

/-- The verdict does not depend on the record. -/
theorem Selector.Verdict.unrecorded {videoId : String} {c : Response.Candidates}
    {attempts : List (Attempt (Recorded σ))} {r : Except Failure Selection}
    (h : Verdict sel videoId c attempts r) :
    Verdict sel videoId c (attempts.map Attempt.unrecorded) r := by
  have hcandidates := Attempt.map_candidate_unrecorded attempts
  cases h with
  | adaptive passed a hlast hmissed hreached hprefix =>
    refine .adaptive (passed.map Attempt.unrecorded) a.unrecorded ?_
      (Attempt.missed_unrecorded hmissed) hreached (hcandidates ▸ hprefix)
    rw [hlast, List.map_append, List.map_singleton]
  | fallback first others hfirst hmissed hallowed hall =>
    refine .fallback first.unrecorded (others.map Attempt.unrecorded) ?_
      (Attempt.missed_unrecorded hmissed) hallowed (hcandidates.trans hall)
    rw [hfirst, List.map_cons]
  | none hnone hmissed hall =>
    rw [← List.length_map Attempt.unrecorded]
    refine .none (hnone.imp_left fun hempty => ?_) (Attempt.missed_unrecorded hmissed)
      (hcandidates.trans hall)
    rw [hempty, List.map_nil]

/-- **The record of a course** has one exchange for each attempt. -/
theorem Course.exchanges_eq {s s' : Session (Recorded σ)} {attempts : List (Attempt (Recorded σ))}
    (h : Course sel access.recording s attempts s') :
    s'.world.exchanges = s.world.exchanges ++
      (attempts.map Attempt.unrecorded).map (Attempt.exchanged sel) := by
  induction h with
  | start => exact (List.append_nil _).symm
  | next _ ha ih =>
    rw [ha.exchanges_eq, ih]
    simp

end Stream

end StreamResolver
