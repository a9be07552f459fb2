/-
  Selecting the stream of a video.

  Three tiers are gone through, each until it is exhausted:

    * presigned: sound whose URL can be played as delivered; the preferred one is taken unprobed;
    * adaptive:  sound whose URL may need decoding; the first one that is reachable is taken;
    * fallback:  the preferred adaptive one, unvalidated, because a player can sometimes open what a
                 probe cannot reach.

  When decoding fails once, the other candidates of the video are tried as they are.
-/
import StreamResolver.Cipher.Session
import StreamResolver.Media.Response
import StreamResolver.Stream.Probe

namespace StreamResolver.Stream

open Network Cipher

/-- The tier that a stream was found in. -/
inductive Tier where
  | presigned
  | adaptive
  | fallback
  deriving DecidableEq, Repr

/-- The name of a tier. -/
def Tier.name : Tier → String
  | .presigned => "presigned"
  | .adaptive => "adaptive"
  | .fallback => "fallback"

/-- A selected stream. -/
structure Selection where
  url : String
  tier : Tier
  codec : AudioCodec
  bitrate : Int
  itag : String
  /-- Whether a probe reached the URL. -/
  validated : Bool
  deriving DecidableEq, Repr

/-- How streams are selected. -/
structure Selector where
  /-- How ciphered URLs are decoded; without it they are tried as they are. -/
  cipher : Option Cipher.Settings := some {}
  probe : Probe := {}
  /-- Whether the preferred candidate is taken when none is reachable. -/
  allowUnvalidated : Bool := true

/-- The world that selecting acts on: the network and the place that scripts are read from. -/
structure Access (σ : Type) where
  transport : Transport σ
  fetcher : Fetcher σ

/-- The playable candidates of a video, the preferred ones first. -/
structure Ranked where
  presigned : List Candidate
  adaptive : List Candidate
  /-- How many candidates lead to manifests. -/
  manifests : Nat
  deriving DecidableEq, Repr

/-- Rank the candidates of a video. -/
def Ranked.ofCandidates (c : Response.Candidates) : Ranked :=
  { presigned := Candidate.rankAudio c.presigned
    adaptive := Candidate.rankAudio c.adaptive
    manifests := (c.presigned ++ c.adaptive).countP (·.isManifest) }

/-- Naturals as fields of an event. -/
def countFields (counts : List (String × Nat)) : Keyed Value :=
  counts.map fun e => (e.1, .int e.2)

namespace Selector

variable {σ : Type}

/-- Report and give a selected stream. -/
def choose (videoId : String) (c : Candidate) (url : String) (tier : Tier) (validated : Bool) :
    Action (Session σ) Selection := do
  .emit .info "stream_selected"
    [("video_id", .str videoId), ("tier", .str tier.name), ("codec", .str c.codec.name),
     ("bitrate", .int c.bitrate), ("itag", .str c.itag), ("validated", .bool validated),
     ("url", clipped 100 url)]
  return ⟨url, tier, c.codec, c.bitrate, c.itag, validated⟩

/-- A URL ready to be tried, and whether decoding it failed.  Only announced failures count as such;
    the URL is then left as it is. -/
def decoded (sel : Selector) (access : Access σ) (videoId url : String) :
    Action (Session σ) (String × Bool) := do
  match sel.cipher with
  | none => return (url, false)
  | some settings =>
    if !(← .ofFault (carriesCipher settings.param url)) then return (url, false)
    else
      match ← (Session.decipher settings access.fetcher url).attempt with
      | .ok deciphered => return (deciphered, false)
      | .error (.fault f) => .fail (.fault f)
      | .error (.extractor e) =>
        .emit .warning "stream_decode_failed"
          [("video_id", .str videoId), ("error", .str e.message), ("error_type", .str e.kind)]
        return (url, true)

/-- What trying the adaptive candidates came to. -/
inductive Tried where
  /-- This one is reachable at the URL. -/
  | reached (c : Candidate) (url : String)
  /-- None is reachable; these are the URLs that were tried, in order. -/
  | exhausted (tried : List (Candidate × String))

/-- Try candidates one after another; `broken` tells that decoding has failed before. -/
def tryEach (sel : Selector) (access : Access σ) (videoId : String) :
    Bool → List (Candidate × String) → List Candidate → Action (Session σ) Tried
  | _, tried, [] => return .exhausted tried
  | broken, tried, c :: rest => do
    let (url, broken) ←
      if broken then pure (c.url, true) else sel.decoded access videoId c.url
    if ← Session.onWorld (sel.probe.reaches access.transport url) then return .reached c url
    else
      .emit .debug "stream_candidate_unreachable"
        [("video_id", .str videoId), ("itag", .str c.itag), ("codec", .str c.codec.name)]
      tryEach sel access videoId broken (tried ++ [(c, url)]) rest

/-- The failure when no tier has a stream. -/
def giveUp (videoId : String) (ranked : Ranked) (tried : Nat) : Action (Session σ) Selection := do
  let counts := [("presigned", ranked.presigned.length)] ++
    Candidate.codecCounts ranked.adaptive ++
    [("probed", tried), ("manifests_excluded", ranked.manifests)]
  .emit .error "stream_not_found" (("video_id", .str videoId) :: countFields counts)
  .fail (.extractor (.noPlayableStream videoId (counts.map fun e => (e.1, (e.2 : Int)))))

/-- Select a stream among ranked candidates. -/
def selectRanked (sel : Selector) (access : Access σ) (videoId : String) (ranked : Ranked) :
    Action (Session σ) Selection := do
  match ranked.presigned with
  | best :: _ => choose videoId best best.url .presigned false
  | [] =>
    match ← sel.tryEach access videoId false [] ranked.adaptive with
    | .reached c url => choose videoId c url .adaptive true
    | .exhausted [] => giveUp videoId ranked 0
    | .exhausted ((c, url) :: others) =>
      if sel.allowUnvalidated then
        .emit .warning "stream_fallback_unvalidated"
          [("video_id", .str videoId), ("itag", .str c.itag), ("tried", .int (others.length + 1))]
        choose videoId c url .fallback false
      else giveUp videoId ranked (others.length + 1)

/-- Select a stream of a video. -/
def select (sel : Selector) (access : Access σ) (video : Value) :
    Action (Session σ) Selection := do
  let fields ← .ofFault video.fieldsOrFault
  let videoId := Response.text fields "videoId"
  let ranked := Ranked.ofCandidates (← .ofFault (Response.candidates video))
  .emit .info "stream_candidates"
    ([("video_id", .str videoId), ("presigned", .int ranked.presigned.length),
      ("manifests_excluded", .int ranked.manifests)] ++
      countFields (Candidate.codecCounts ranked.adaptive))
  sel.selectRanked access videoId ranked

end Selector

end StreamResolver.Stream
