/-
  Probing a media URL: is it reachable?

  The first octet of the file is asked for, with the headers of a browser, and the body is not read.
  A redirection counts as reachable.
-/
import StreamResolver.Log.Action
import StreamResolver.Network.Transport

namespace StreamResolver.Stream

open Network

/-- The user agent that requests are made with unless another one is configured. -/
def defaultUserAgent : String :=
  "Mozilla/5.0 (Windows NT 10.0; Win64; x64) AppleWebKit/537.36 (KHTML, like Gecko) " ++
    "Chrome/131.0.0.0 Safari/537.36"

/-- The headers of a request for media that a browser makes. -/
def browserHeaders : Keyed String :=
  [("User-Agent", defaultUserAgent), ("Accept", "*/*"), ("Accept-Language", "en-US,en;q=0.9"),
   ("Origin", "https://www.youtube.com"), ("Referer", "https://www.youtube.com/"),
   ("Sec-Fetch-Dest", "empty"), ("Sec-Fetch-Mode", "cors"), ("Sec-Fetch-Site", "cross-site")]

/-- How URLs are probed. -/
structure Probe where
  /-- Seconds. -/
  timeout : Number := .float (.ofInt 5)
  /-- Headers that replace those of a browser or are added to them. -/
  headers : Keyed String := []
  deriving DecidableEq, Repr

/-- The first characters of a URL, for the log. -/
def clipped (n : Nat) (url : String) : Value := .ofChars (url.toList.take n)

namespace Probe

/-- The headers that are sent. -/
def allHeaders (p : Probe) : Keyed String :=
  (p.headers.foldl (fun t e => t.put e.1 e.2) browserHeaders).put "Range" "bytes=0-0"

/-- Whether a URL is reachable.  A connection that fails is an answer too: it is not. -/
def reaches {σ : Type} (p : Probe) (t : Transport σ) (url : String) : Action σ Bool := fun s =>
  let shown := ("url", clipped 120 url)
  match t.send (.probe url p.timeout p.allHeaders) s with
  | (.error .timedOut, s) =>
    let timeout := match p.timeout with
      | .int n => Value.int n
      | .float x => .float x
    ⟨.ok false, s, [⟨.info, "stream_probe_timeout", [shown, ("timeout", timeout)]⟩]⟩
  | (.error (.failed detail), s) =>
    ⟨.ok false, s, [⟨.warning, "stream_probe_error", [shown, ("error", .str detail)]⟩]⟩
  | (.error (.fault f), s) => ⟨.error (.fault f), s, []⟩
  | (.ok answer, s) =>
    if answer.isReachable then ⟨.ok true, s, []⟩
    else
      ⟨.ok false, s,
        [⟨.warning, "stream_probe_failed", [("status", .int answer.status), shown]⟩]⟩

end Probe

end StreamResolver.Stream
