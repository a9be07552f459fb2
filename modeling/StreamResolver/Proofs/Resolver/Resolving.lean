/-
  What resolving a link asks for.

  A resolver sends at most one request for a link: for the playlist when the link is taken for one,
  else for the video that the link names (`requests_eq`).  To say so the client is given a record of
  its exchanges, which changes nothing else (`resolve_recording`).

  A link is taken for a playlist by its query alone, while a video may also stand in its path.  So a
  link that is taken for a playlist names no video exactly when its path has no id
  (`playlist_links_name_no_video`).
-/
import StreamResolver.Proofs.Media.Naming
import StreamResolver.Proofs.Network.OneExchange
import StreamResolver.Proofs.Stream.Recording
import StreamResolver.Resolver.Basic

namespace StreamResolver

open Network Cipher
open StreamResolver.Stream (Recorded recorded)

variable {σ : Type} {α β : Type}

/-! ## A client with a record -/

/-- The same client, with a record of its exchanges. -/
def Client.recording (client : Client σ) : Client (Recorded σ) where
  transport :=
    { send := fun request w =>
        let (exchange, world) := client.transport.send request w.world
        (exchange, ⟨world, w.exchanges ++ [(request, exchange)]⟩) }
  close w := { w with world := client.close w.world }

variable {client : Client σ}

/-- A reading does not depend on the record. -/
theorem mirrors_reading {request : Request} {read : Reader α} (h : Exchanges request read) :
    Session.Mirrors Recorded.world (Session.onWorld (read _ client.recording.transport))
      (Session.onWorld (read _ client.transport)) := by
  intro s
  have hbare := h σ client.transport s.world.world
  have hrecorded := h _ client.recording.transport s.world
  unfold Session.onWorld Action.onPart
  simp only [Session.mapWorld, hbare, hrecorded]
  rfl

/-! ## What is sent -/

/-- The action sends just these requests, whatever comes of it. -/
def Sends (p : Action (Session (Recorded σ)) α) (requests : List Request) : Prop :=
  ∀ s, (p s).state.world.exchanges.map (·.1) = s.world.exchanges.map (·.1) ++ requests

theorem sends_nothing {p : Action (Session (Recorded σ)) α} (h : ∀ s, (p s).state = s) :
    Sends p [] := by
  intro s
  rw [h s, List.append_nil]

theorem Sends.bind {p : Action (Session (Recorded σ)) α} {f : α → Action (Session (Recorded σ)) β}
    {requests : List Request} (hp : Sends p requests) (hf : ∀ a, Sends (f a) []) :
    Sends (p >>= f) requests := by
  intro s
  have hs := hp s
  rcases h : p s with ⟨e | a, s', events⟩
  · rw [h] at hs
    rw [Action.bind_error h]
    exact hs
  · rw [h] at hs
    rw [Action.bind_ok h, ← hs, ← List.append_nil (s'.world.exchanges.map _)]
    exact hf a s'

/-- A reading sends its request. -/
theorem sends_reading {request : Request} {read : Reader α} (h : Exchanges request read) :
    Sends (Session.onWorld (read _ client.recording.transport)) [request] := by
  intro s
  have hrecorded := h _ client.recording.transport s.world
  unfold Session.onWorld Action.onPart
  simp only [hrecorded]
  exact List.map_append

namespace Resolver

variable (r : Resolver) (client : Client σ)

/-- The requests that resolving a link sends, in order. -/
def requests (url : String) (metadata : Value) (s : Session σ) : List Request :=
  (r.resolve client.recording url metadata (recorded s)).state.world.exchanges.map (·.1)

/-- The one request for a link: for the playlist, or else for the video. -/
def request? (url : String) : Option Request :=
  if Link.isPlaylist url.toList then
    (Link.playlistId? url.toList).map fun id =>
      .read (r.inst.playlistUrl (String.ofList id)) r.inst.timeout
  else
    (Link.videoId? url.toList).map fun id =>
      .read (r.inst.videoUrl (String.ofList id)) r.inst.timeout

variable (url : String) (metadata : Value)

theorem sends_songOf (id : String) :
    Sends (r.songOf client.recording id metadata) [.read (r.inst.videoUrl id) r.inst.timeout] :=
  (sends_reading (r.inst.video_exchanges id)).bind fun _ =>
    (sends_nothing fun _ => rfl).bind fun _ => sends_nothing fun _ => rfl

/-- A playlist is sent for by its id, if the link has one. -/
theorem sends_playlist :
    Sends (r.playlist client.recording url metadata)
      ((Link.playlistId? url.toList).map fun id =>
        .read (r.inst.playlistUrl (String.ofList id)) r.inst.timeout).toList := by
  unfold playlist
  rw [Link.filter_playlistId?]
  rcases Link.playlistId? url.toList with _ | id
  · exact sends_nothing fun _ => rfl
  · exact (sends_reading (r.inst.playlist_exchanges (String.ofList id))).bind fun _ =>
      (sends_nothing fun _ => rfl).bind fun _ =>
        (sends_nothing fun _ => rfl).bind fun _ => sends_nothing fun _ => rfl

theorem sends_resolve :
    Sends (r.resolve client.recording url metadata) (r.request? url).toList := by
  unfold resolve request?
  split
  · exact (r.sends_playlist client url metadata).bind fun _ => sends_nothing fun _ => rfl
  · rw [Link.filter_videoId?]
    rcases Link.videoId? url.toList with _ | id
    · exact sends_nothing fun _ => rfl
    · exact (r.sends_songOf client metadata (String.ofList id)).bind fun _ =>
        sends_nothing fun _ => rfl

/-- **Resolving sends at most one request**, and the link tells which. -/
theorem requests_eq (s : Session σ) :
    r.requests client url metadata s = (r.request? url).toList :=
  r.sends_resolve client url metadata (recorded s)

/-! ## The record changes nothing -/

theorem mirrors_songOf (id : String) :
    Session.Mirrors Recorded.world (r.songOf client.recording id metadata)
      (r.songOf client id metadata) :=
  Session.mirrors_bind (mirrors_reading (r.inst.video_exchanges id)) fun _ =>
    Session.mirrors_bind (Session.mirrors_ofFault _) fun _ => Session.mirrors_pure _

theorem mirrors_playlist :
    Session.Mirrors Recorded.world (r.playlist client.recording url metadata)
      (r.playlist client url metadata) := by
  unfold playlist
  rw [Link.filter_playlistId?]
  rcases Link.playlistId? url.toList with _ | id
  · exact Session.mirrors_fail _
  · exact Session.mirrors_bind (mirrors_reading (r.inst.playlist_exchanges (String.ofList id)))
      fun _ => Session.mirrors_bind (Session.mirrors_ofFault _) fun _ =>
        Session.mirrors_bind (Session.mirrors_emit _ _ _) fun _ => Session.mirrors_pure _

theorem mirrors_resolve :
    Session.Mirrors Recorded.world (r.resolve client.recording url metadata)
      (r.resolve client url metadata) := by
  unfold resolve
  split
  · exact Session.mirrors_bind (r.mirrors_playlist client url metadata) fun _ =>
      Session.mirrors_pure _
  · rw [Link.filter_videoId?]
    rcases Link.videoId? url.toList with _ | id
    · exact Session.mirrors_fail _
    · exact Session.mirrors_bind (r.mirrors_songOf client metadata (String.ofList id)) fun _ =>
        Session.mirrors_pure _

/-- Recording changes nothing about resolving. -/
theorem resolve_recording (s : Session σ) : r.resolve client url metadata s =
    let o := r.resolve client.recording url metadata (recorded s)
    ⟨o.result, o.state.mapWorld Recorded.world, o.events⟩ :=
  r.mirrors_resolve client url metadata (recorded s)

/-! ## Playlists and videos -/

/-- A request for a playlist is none for a video. -/
theorem playlistUrl_ne_videoUrl (i : Instance) (id id' : String) :
    i.playlistUrl id ≠ i.videoUrl id' := by
  intro h
  have hlist := congrArg String.toList h
  simp only [Instance.playlistUrl, Instance.videoUrl, Instance.apiUrl, String.toList_append,
    String.toList_ofList, List.append_assoc, List.append_cancel_left_eq] at hlist
  have hhead := congrArg List.head? hlist
  simp at hhead

/-- **A link that is taken for a playlist names no video** unless its path does, and for these links
    and no other a playlist is asked for; any other link is resolved by the video that it names. -/
theorem playlist_links_name_no_video (s : Session σ) :
    (Link.isPlaylist url.toList = true →
      (Link.videoId? url.toList = none ↔ Link.pathVideoIds url.toList = [])) ∧
    ((∃ id, .read (r.inst.playlistUrl id) r.inst.timeout ∈ r.requests client url metadata s) ↔
      Link.isPlaylist url.toList = true) ∧
    (Link.isPlaylist url.toList = false → r.requests client url metadata s =
      ((Link.videoId? url.toList).map fun id =>
        .read (r.inst.videoUrl (String.ofList id)) r.inst.timeout).toList) := by
  rw [requests_eq, request?]
  refine ⟨fun h => ?names, ?asks, fun h => ?video⟩
  case names =>
    have hvalues := ((Link.isPlaylist_iff url.toList).mp h).2
    rw [Link.videoId?_eq, Link.videoIds, hvalues, List.nil_append, List.head?_eq_none_iff]
  case asks =>
    rcases hlist : Link.isPlaylist url.toList with _ | _
    · refine iff_of_false ?_ Bool.false_ne_true
      rintro ⟨id, hid⟩
      rw [if_neg Bool.false_ne_true, Option.mem_toList, Option.map_eq_some_iff] at hid
      obtain ⟨video, -, heq⟩ := hid
      exact playlistUrl_ne_videoUrl r.inst id _ (Request.read.inj heq).1.symm
    · refine iff_of_true ?_ rfl
      have hnamed := ((Link.isPlaylist_iff url.toList).mp hlist).1
      obtain ⟨id, more, hids⟩ := List.exists_cons_of_ne_nil hnamed
      refine ⟨String.ofList id, ?_⟩
      rw [if_pos rfl, Link.playlistId?_eq, hids]
      exact List.mem_singleton_self _
  case video => rw [h, if_neg Bool.false_ne_true]

/-- A client of a network on which nothing is found. -/
def sampleClient : Client Unit := ⟨.always Routes.unknown, id⟩

theorem playlist_links_name_no_video_sample :
    (Link.isPlaylist "https://www.youtube.com/playlist?list=PL1".toList = true ∧
      Link.videoId? "https://www.youtube.com/playlist?list=PL1".toList = none ∧
      ∃ id, .read (({} : Resolver).inst.playlistUrl id) ({} : Resolver).inst.timeout ∈
        ({} : Resolver).requests sampleClient "https://www.youtube.com/playlist?list=PL1" .null
          ⟨{}, ()⟩) ∧
    ({} : Resolver).requests sampleClient "https://www.youtube.com/watch?list=PL1&v=abc" .null
        ⟨{}, ()⟩ =
      [.read (({} : Resolver).inst.videoUrl "abc") ({} : Resolver).inst.timeout] := by
  have hlist : Link.isPlaylist "https://www.youtube.com/playlist?list=PL1".toList = true := by
    decide +kernel
  have hwatch : Link.isPlaylist "https://www.youtube.com/watch?list=PL1&v=abc".toList = false := by
    decide +kernel
  have hvideo : Link.videoId? "https://www.youtube.com/watch?list=PL1&v=abc".toList =
      some "abc".toList := by
    decide +kernel
  obtain ⟨hnames, hasks, -⟩ := playlist_links_name_no_video {} sampleClient
    "https://www.youtube.com/playlist?list=PL1" .null ⟨{}, ()⟩
  obtain ⟨-, -, hother⟩ := playlist_links_name_no_video {} sampleClient
    "https://www.youtube.com/watch?list=PL1&v=abc" .null ⟨{}, ()⟩
  refine ⟨⟨hlist, (hnames hlist).mpr (by decide +kernel), hasks.mpr hlist⟩, ?_⟩
  rw [hother hwatch, hvideo]
  rfl

/-- A video in the path does not keep a link from being taken for a playlist. -/
example : Link.isPlaylist "https://youtu.be/abc123?list=PL1".toList = true ∧
    Link.videoId? "https://youtu.be/abc123?list=PL1".toList = some "abc123".toList := by
  decide +kernel

end Resolver

end StreamResolver
