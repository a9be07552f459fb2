/-
  Why something could not be done.

  `ExtractorError` holds the failures that the program announces: each names what was looked for or
  asked for, and `message` is its wording.  `Fault` holds the ones it does not announce: a value of
  the wrong shape, a number that cannot be cut to an integer, a URL that cannot be split.  The
  difference is visible: callers degrade gracefully on the first kind only.
-/
import StreamResolver.Value.Display
import StreamResolver.Number.Basic

namespace StreamResolver

/-- An announced failure. -/
inductive ExtractorError where
  /-- A failure with a message and nothing else. -/
  | general (text : String)
  /-- No expression for the role matched the text. -/
  | extractionFailed (role : String)
  /-- The other end could not be reached or refused. -/
  | unavailable (url : String) (status : Option Int) (detail : String)
  /-- The other end took too long. -/
  | timedOut (url : String) (timeout : Option Number)
  /-- No candidate of any tier can be played; the counts tell how many were considered. -/
  | noPlayableStream (videoId : String) (counts : Keyed Int)
  /-- The URL names no video or playlist. -/
  | invalidMediaUrl (url : String) (reason : String)
  deriving DecidableEq, Repr

namespace ExtractorError

/-- The name of the kind of failure, as reported in log events. -/
def kind : ExtractorError → String
  | .general _ => "InvidiarrError"
  | .extractionFailed _ => "ExtractionFailed"
  | .unavailable .. => "UpstreamUnavailable"
  | .timedOut .. => "UpstreamTimeout"
  | .noPlayableStream .. => "NoPlayableStream"
  | .invalidMediaUrl .. => "InvalidMediaUrl"

/-- The message about a URL that could not be read, with the status and the detail if there are any. -/
def unavailableText (url : String) (status : Option Int) (detail : String) : String :=
  "Upstream unavailable: " ++ url ++
    (match status with
      | some n => " (HTTP " ++ String.ofList (Text.integerText n) ++ ")"
      | none => "") ++
    (if detail = "" then "" else ": " ++ detail)

/-- The counts as `name=number`, separated by a comma and a space. -/
def countsText (counts : Keyed Int) : String :=
  ", ".intercalate (counts.map fun (tier, n) => tier ++ "=" ++ String.ofList (Text.integerText n))

/-- The wording of a failure. -/
def message : ExtractorError → String
  | .general text => text
  | .extractionFailed role => "No pattern matched for role '" ++ role ++ "'"
  | .unavailable url status detail => unavailableText url status detail
  | .timedOut url none => unavailableText url none "timed out"
  | .timedOut url (some t) => unavailableText url none ("timed out after " ++ t.text ++ "s")
  | .noPlayableStream videoId counts =>
    "No playable audio stream found for '" ++ videoId ++ "' (" ++ countsText counts ++
      "). Try a different Invidious instance or check if the video is available."
  | .invalidMediaUrl url reason => reason ++ ": " ++ url

/-- A failure of which only a few things are said: one as it is, several in parentheses. -/
def saying : List Value → ExtractorError
  | [] => .general ""
  | [v] => .general v.display
  | vs => .general ("(" ++ String.ofList (Value.innerItems vs) ++ ")")

/-- The reason given when a link names no video. -/
def invalidVideoLink : String := "Invalid YouTube URL"

end ExtractorError

/-- An unannounced failure. -/
inductive Fault where
  /-- A value that cannot be gone through, or an operation on a value of the wrong kind. -/
  | wrongKind
  /-- A value that has no fields was asked for one. -/
  | notAnObject
  /-- An infinite number was to be cut to an integer. -/
  | infiniteNumber
  /-- An index outside of what it indexes: a capture that an expression does not have, a slot before
      the start of a list. -/
  | outOfRange
  /-- A text that should be an integer is none, or has more digits than are read. -/
  | unreadableNumeral
  /-- A URL whose host is malformed. -/
  | malformedUrl
  /-- Octets that are no text of the character set that was announced. -/
  | undecodable
  /-- What was announced as a character set gives no text. -/
  | notText
  /-- The transport refused to build a request for the URL. -/
  | unusableUrl
  /-- The transport met conflicting cookies. -/
  | cookieConflict
  /-- The transport broke down. -/
  | crashed
  /-- The work was cancelled. -/
  | cancelled
  deriving DecidableEq, Repr

/-- Any failure. -/
inductive Failure where
  | extractor (e : ExtractorError)
  | fault (f : Fault)
  deriving DecidableEq, Repr

namespace Failure

/-- The announced failure, if it is one. -/
def extractor? : Failure → Option ExtractorError
  | .extractor e => some e
  | .fault _ => none

end Failure

end StreamResolver
