/-
  Candidate streams of a video, and which of them is preferred.

  A candidate is one media URL of a video response with what is known about it.  Only audio that is
  delivered as a file can be played, so `rankAudio` drops everything else and orders the rest by
  codec and then by bitrate, the better one first; candidates that agree in both keep their order.
-/
import StreamResolver.Text.Basic
import StreamResolver.Text.LetterCase

namespace StreamResolver

/-- An audio codec, as far as the preference goes. -/
inductive AudioCodec where
  | other
  | aac
  | opus
  deriving DecidableEq, Repr

namespace AudioCodec

/-- How much a codec is preferred; more is better. -/
def preference : AudioCodec → Nat
  | .other => 10
  | .aac => 20
  | .opus => 30

/-- The name of a codec. -/
def name : AudioCodec → String
  | .other => "other"
  | .aac => "aac"
  | .opus => "opus"

/-- All codecs, the preferred ones first. -/
def all : List AudioCodec := [.opus, .aac, .other]

end AudioCodec

/-- A media URL that may be played. -/
structure Candidate where
  url : String
  /-- The media type, such as `audio/webm; codecs="opus"`. -/
  mimeType : String := ""
  /-- The name of the encoding, when it is given apart from the media type. -/
  encoding : String := ""
  /-- Bits per second, or another measure of size; 0 when unknown. -/
  bitrate : Int := 0
  /-- The number under which the video site lists the format. -/
  itag : String := ""
  /-- Whether the URL leads to a manifest instead of a file. -/
  isManifest : Bool := false
  /-- Whether the URL can be played as delivered. -/
  presigned : Bool := false
  deriving DecidableEq, Repr

namespace Candidate

open Text

/-- Whether the media type is one of sound alone. -/
def isAudio (c : Candidate) : Bool := "audio/".toList.isPrefixOf (lower c.mimeType.toList)

/-- The codec that the media type or the encoding names. -/
def codec (c : Candidate) : AudioCodec :=
  let hint := lower (c.mimeType.toList ++ ' ' :: c.encoding.toList)
  if occurs "opus".toList hint then .opus
  else if occurs "mp4a".toList hint || occurs "aac".toList hint then .aac
  else .other

/-- Whether a candidate is sound delivered as a file. -/
def isPlayable (c : Candidate) : Bool := c.isAudio && !c.isManifest

/-- Whether one candidate may stand before another: its codec is preferred, or it is the same and its
    bitrate is not lower. -/
def mayPrecede (a b : Candidate) : Bool :=
  b.codec.preference < a.codec.preference ||
    (a.codec.preference == b.codec.preference && decide (b.bitrate ≤ a.bitrate))

/-- The playable candidates, the preferred ones first. -/
def rankAudio (candidates : List Candidate) : List Candidate :=
  (candidates.filter isPlayable).mergeSort mayPrecede

/-- How many candidates have each codec. -/
def codecCounts (candidates : List Candidate) : List (String × Nat) :=
  AudioCodec.all.map fun codec => (codec.name, candidates.countP (·.codec == codec))

end Candidate

end StreamResolver
