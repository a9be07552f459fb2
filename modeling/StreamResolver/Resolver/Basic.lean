/-
  Resolving links.

  A resolver turns links and queries into songs and playlists, finds the media URL of a song, and lists
  the songs related to it.  It asks one instance, keeps one cipher session, and knows its configuration;
  two resolvers share nothing.

  Everything it reads goes through one client, which is a way to send requests and can be closed.
  A resolver that made its client closes it when it is done; one that was given a client leaves it
  open.
-/
import StreamResolver.Config.Basic
import StreamResolver.Media.Link
import StreamResolver.Media.Response
import StreamResolver.Network.Instance
import StreamResolver.Stream.Selector

namespace StreamResolver

open Network Cipher

/-- A client: a network, and how it is closed. -/
structure Client (σ : Type) where
  transport : Transport σ
  close : σ → σ

/-- How a client is made. -/
structure ClientOptions where
  /-- Seconds. -/
  timeout : Binary64
  followRedirects : Bool
  headers : Keyed String
  deriving DecidableEq, Repr

/-- Texts read through an instance, for a cipher session. -/
def Instance.fetcher {σ : Type} (i : Instance) (t : Transport σ) : Fetcher σ where
  request _ s := s
  deliver := i.fetchText t

/-- What a link leads to. -/
inductive Resolved where
  | song (s : Song)
  | playlist (p : Playlist)
  deriving BEq, Repr

/-- A resolver. -/
structure Resolver where
  config : Config := {}
  /-- Whether the client is the resolver's own. -/
  ownsClient : Bool := false
  deriving DecidableEq, Repr

namespace Resolver

/-- The name that resolvers go by. -/
def name : String := "invidious"

/-- The instance that is asked. -/
def inst (r : Resolver) : Instance := .named r.config.instanceName (.float r.config.timeout)

/-- The header that tells who asks. -/
def agentHeader (r : Resolver) : Keyed String := [("User-Agent", r.config.userAgent)]

/-- How the resolver makes its client, if it makes one. -/
def clientOptions (r : Resolver) : Option ClientOptions :=
  if r.ownsClient then some ⟨r.config.timeout, true, r.agentHeader⟩ else none

/-- How streams are selected. -/
def selector (r : Resolver) : Stream.Selector :=
  { cipher := some r.config.cipherSettings
    probe := { timeout := .float r.config.streams.probeTimeout, headers := r.agentHeader }
    allowUnvalidated := r.config.streams.allowUnvalidated }

/-- What a player has to be told so that it asks as the resolver does. -/
def playerArguments (r : Resolver) : List String := ["-user_agent", r.config.userAgent]

/-- Whether a link can be resolved. -/
def recognises (url : String) : Bool := Link.isRecognised url.toList

/-- The reason given when a link names no playlist. -/
def invalidPlaylistLink : String := "Invalid playlist URL"

section

variable {σ : Type} (r : Resolver) (client : Client σ)

/-- The response about a video. -/
def video (id : String) : Action (Session σ) Value :=
  Session.onWorld (r.inst.video client.transport id)

/-- The song of a video. -/
def songOf (id : String) (metadata : Value) : Action (Session σ) Song := do
  let data ← r.video client id
  return (← .ofFault (Response.songOfVideo data r.inst.url)).attach true metadata

/-- The playlist that a link names. -/
def playlist (url : String) (metadata : Value) : Action (Session σ) Playlist := do
  match (Link.playlistId? url.toList).filter (!·.isEmpty) with
  | none => .fail (.extractor (.invalidMediaUrl url invalidPlaylistLink))
  | some id =>
    let data ← Session.onWorld (r.inst.playlist client.transport (String.ofList id))
    let p := (← .ofFault (Response.playlist data r.inst.url)).attach true metadata
    .emit .info "invidious_playlist_resolved"
      [("playlist_id", .ofChars id), ("songs", .int p.songs.length)]
    return p

/-- The song or playlist that a link leads to. -/
def resolve (url : String) (metadata : Value) : Action (Session σ) Resolved := do
  if Link.isPlaylist url.toList then return .playlist (← r.playlist client url metadata)
  match (Link.videoId? url.toList).filter (!·.isEmpty) with
  | none => .fail (.extractor (.invalidMediaUrl url ExtractorError.invalidVideoLink))
  | some id => return .song (← r.songOf client (String.ofList id) metadata)

/-- The first video that a search finds. -/
def search (query : String) (metadata : Value) : Action (Session σ) (Option Song) := do
  let hits ← Session.onWorld (r.inst.search client.transport query)
  match Response.firstVideoId? (.list hits) with
  | none =>
    .emit .info "invidious_search_empty" [("query", .str query)]
    return none
  | some id => return some (← r.songOf client id metadata)

/-- The song with its media URL. -/
def withStream (s : Song) : Action (Session σ) Song := do
  .emit .info "invidious_stream_lookup" [("video_id", .str s.id)]
  let data ← r.video client s.id
  let access : Stream.Access σ :=
    { transport := client.transport, fetcher := r.inst.fetcher client.transport }
  let selection ← r.selector.select access data
  return { s with streamUrl := some selection.url }

/-- The songs related to a song. -/
def related (s : Song) : Action (Session σ) (List Song) := do
  let data ← r.video client s.id
  let songs ← .ofFault (Response.relatedSongs data r.inst.url r.config.streams.relatedLimit)
  return songs.map (·.attach true .null)

/-- Forget the transform, and close the client if it is the resolver's own. -/
def cleanup : Action (Session σ) Unit := do
  .modify Session.clear
  if r.ownsClient then Session.onWorld (.modify client.close)

/-- Do something and clean up, whether it succeeded or not. -/
def during {α : Type} (p : Action (Session σ) α) : Action (Session σ) α := do
  let result ← p.attempt
  r.cleanup client
  .ofResult result

end

end Resolver

end StreamResolver
