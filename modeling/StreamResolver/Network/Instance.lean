/-
  Talking to an instance.

  An instance answers questions about videos, playlists and searches under `/api/v1/`.  Whatever goes
  wrong on the way is one of two announced failures: the instance took too long, or it was not
  available, which includes refusals, unreadable answers and answers of the wrong shape.
-/
import StreamResolver.Log.Action
import StreamResolver.Network.Body
import StreamResolver.Url.Percent

namespace StreamResolver

open Text

/-- The URL of an instance: a name without a scheme is taken for a secure site, and slashes at the
    end are dropped. -/
def normalizeInstance (name : String) : String :=
  let trimmed := trimEnd (· == '/') (trim name.toList)
  if "http://".toList.isPrefixOf trimmed || "https://".toList.isPrefixOf trimmed then
    String.ofList trimmed
  else "https://" ++ String.ofList trimmed

/-- An instance and how long it may take to answer. -/
structure Instance where
  url : String
  /-- Seconds. -/
  timeout : Number := .float (.ofInt 10)
  deriving DecidableEq, Repr

/-- What the body of an answer is wanted for. -/
inductive Purpose where
  | text
  | json
  deriving DecidableEq, Repr

/-- The name of a purpose in log events. -/
def Purpose.name : Purpose → String
  | .text => "text"
  | .json => "json"

namespace Instance

open Network

variable {σ : Type}

/-- The instance with the given name. -/
def named (name : String) (timeout : Number) : Instance := ⟨normalizeInstance name, timeout⟩

/-- The URL of a path of the interface. -/
def apiUrl (i : Instance) (path : String) : String :=
  i.url ++ "/api/v1/" ++ String.ofList (path.toList.dropWhile (· == '/'))

/-- Read a URL; anything but success is a failure. -/
def get (i : Instance) (t : Transport σ) (url : String) (purpose : Purpose) : Action σ Answer :=
  fun s =>
    let context := ("context", Value.str purpose.name)
    let fail (s : σ) (e : ExtractorError) (name : String) (fields : Keyed Value) :
        Outcome σ Answer :=
      ⟨.error (.extractor e), s, [⟨.warning, name, ("url", .str url) :: fields ++ [context]⟩]⟩
    match t.send (.read url i.timeout) s with
    | (.error .timedOut, s) => fail s (.timedOut url (some i.timeout)) "invidious_timeout" []
    | (.error (.failed detail), s) =>
      fail s (.unavailable url none detail) "invidious_fetch_error" [("error", .str detail)]
    | (.error (.fault f), s) => ⟨.error (.fault f), s, []⟩
    | (.ok answer, s) =>
      if answer.isSuccess then ⟨.ok answer, s, []⟩
      else
        fail s (.unavailable url (some answer.status) "") "invidious_http_error"
          [("status", .int answer.status)]

/-- Read a text from anywhere. -/
def fetchText (i : Instance) (t : Transport σ) (url : String) : Action σ String := do
  .ofFault (← i.get t url .text).text

/-- Read a JSON document from anywhere. -/
def fetchJson (i : Instance) (t : Transport σ) (url : String) : Action σ Value := do
  match (← i.get t url .json).json? with
  | some v => return v
  | none =>
    .emit .warning "invidious_invalid_json" [("url", .str url)]
    .fail (.extractor (.unavailable url none "invalid JSON"))

/-- Read a JSON object from a path of the interface. -/
def fetchObject (i : Instance) (t : Transport σ) (path : String) : Action σ Value := do
  let url := i.apiUrl path
  let v ← i.fetchJson t url
  if v.isObject then return v
  else .fail (.extractor (.unavailable url none "unexpected shape"))

/-- An id or a query as a part of a URL. -/
def inUrl (s : String) : String := String.ofList (Percent.encodePath s.toList)

/-- The response about a video. -/
def video (i : Instance) (t : Transport σ) (id : String) : Action σ Value :=
  i.fetchObject t ("videos/" ++ inUrl id)

/-- The response about a playlist. -/
def playlist (i : Instance) (t : Transport σ) (id : String) : Action σ Value :=
  i.fetchObject t ("playlists/" ++ inUrl id)

/-- The videos that a search finds. -/
def search (i : Instance) (t : Transport σ) (query : String) : Action σ (List Value) := do
  match ← i.fetchJson t (i.apiUrl ("search?q=" ++ inUrl query ++ "&type=video")) with
  | .list items => return items.filter Value.isObject
  | _ => return []

end Instance

end StreamResolver
