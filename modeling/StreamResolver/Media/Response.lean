/-
  Reading the responses of an instance.

  A response is a dynamic value, and anything in it may be missing or of the wrong kind.  A field of
  the wrong kind reads as a neutral value: 0 for a count, the empty text for a name, no candidate for
  a format.  What is left to fail is a response that has no fields at all, a list that is none, and a
  count that is infinite.

  Statement: `largest?_first` (the chosen thumbnail is larger than those in front of it, and none
  behind it is larger).
-/
import StreamResolver.Failure
import StreamResolver.Media.Candidate
import StreamResolver.Media.Link
import StreamResolver.Media.Song

namespace StreamResolver

namespace Value

open Text

/-! ## Reading fields -/

/-- The integer that a value gives: a number without its fraction, a numeral, or 0. -/
def count : Value → Except Fault Int
  | .int n => .ok n
  | .bool b => .ok (if b then 1 else 0)
  | .float (.infinity _) => .error .infiniteNumber
  | .float x => .ok (x.truncate?.getD 0)
  | .str s => .ok ((readInteger s.toList).toOption.getD 0)
  | .null | .list _ | .object _ => .ok 0

/-- The value itself if it counts as true. -/
def nonVoid? (v : Option Value) : Option Value := v.filter truthy

/-- The text of a value that counts as true, else the empty text. -/
def textOrEmpty (v : Option Value) : String := ((nonVoid? v).map display).getD ""

/-- The elements that a value goes through: those of a list, the characters of a text, the keys of an
    object.  What counts as false has none, and nothing else can be gone through. -/
def elements (v : Option Value) : Except Fault (List Value) :=
  match nonVoid? v with
  | none => .ok []
  | some (.list items) => .ok items
  | some (.str s) => .ok (s.toList.map fun c => ofChars [c])
  | some (.object fields) => .ok (fields.map fun e => .str e.1)
  | some _ => .error .wrongKind

/-- The objects among the elements of a value. -/
def objects (v : Option Value) : Except Fault (List (Keyed Value)) := do
  return (← elements v).filterMap fields?

/-- The fields of a value that must be an object. -/
def fieldsOrFault (v : Value) : Except Fault (Keyed Value) :=
  match v.fields? with
  | some fields => .ok fields
  | none => .error .notAnObject

end Value

namespace Response

open Value

/-- The count under a key. -/
def count (fields : Keyed Value) (key : String) : Except Fault Int :=
  ((fields.get? key).getD .null).count

/-- The text under a key. -/
def text (fields : Keyed Value) (key : String) : String := textOrEmpty (fields.get? key)

/-! ## Formats -/

/-- The first count above 0 under the given keys, else 0. -/
def firstPositive (fields : Keyed Value) : List String → Except Fault Int
  | [] => .ok 0
  | key :: rest => do
    let n ← count fields key
    if n > 0 then return n else firstPositive fields rest

/-- The bitrate of a format, or its size in bytes when no bitrate is given. -/
def bitrate (format : Keyed Value) : Except Fault Int :=
  firstPositive format ["bitrate", "contentLength", "clen"]

/-- The candidate of a format; a format without a URL is none. -/
def candidate? (presigned : Bool) (format : Keyed Value) : Except Fault (Option Candidate) :=
  match format.get? "url" with
  | some (.str url) =>
    if url = "" then .ok none
    else do
      return some {
        url
        mimeType := textOrEmpty ((nonVoid? (format.get? "mimeType")).or (format.get? "type"))
        encoding := text format "encoding"
        bitrate := ← bitrate format
        itag := text format "itag"
        isManifest := Link.isManifest url.toList
        presigned }
  | _ => .ok none

/-- The candidates of a list of formats. -/
def candidatesOf (presigned : Bool) (formats : Option Value) : Except Fault (List Candidate) := do
  return (← (← objects formats).mapM (candidate? presigned)).filterMap id

/-- The candidates of a video, in the order of the response. -/
structure Candidates where
  /-- Those whose URLs can be played as delivered. -/
  presigned : List Candidate
  /-- Those whose URLs may need decoding. -/
  adaptive : List Candidate
  deriving DecidableEq, Repr

/-- The candidates of a video response. -/
def candidates (video : Value) : Except Fault Candidates := do
  let fields ← video.fieldsOrFault
  let presigned ← candidatesOf true (fields.get? "formatStreams")
  let adaptive ← candidatesOf false (fields.get? "adaptiveFormats")
  return ⟨presigned, adaptive⟩

/-! ## Thumbnails -/

/-- The first entry with the greatest size. -/
def largest? {α : Type} (entries : List (α × Int)) : Option (α × Int) :=
  match entries with
  | [] => none
  | first :: rest => some (rest.foldl (fun best e => if best.2 < e.2 then e else best) first)

/-- A thumbnail with its area. -/
def measured (thumbnail : Keyed Value) : Except Fault (Keyed Value × Int) := do
  let width ← count thumbnail "width"
  let height ← count thumbnail "height"
  return (thumbnail, width * height)

/-- The URL of the largest thumbnail, or the empty text. -/
def bestThumbnail (thumbnails : Option Value) : Except Fault String := do
  let entries ← (← objects thumbnails).mapM measured
  match largest? entries with
  | some (best, _) => return text best "url"
  | none => return ""

/-! ## Songs -/

/-- The text under a key, or the given one when there is nothing under the key. -/
def displayOr (fields : Keyed Value) (key default : String) : String :=
  ((fields.get? key).map display).getD default

/-- The page of the channel that a video names by its id. -/
def channelPage (fields : Keyed Value) : String := "/channel/" ++ displayOr fields "authorId" ""

/-- The song of a video whose uploader has the given page. -/
def songWith (fields : Keyed Value) (instanceUrl uploaderPage : String) : Except Fault Song := do
  let id := text fields "videoId"
  let thumbnail ← bestThumbnail (fields.get? "videoThumbnails")
  let duration ← count fields "lengthSeconds"
  let views ← count fields "viewCount"
  let likes ← count fields "likeCount"
  return {
    id
    name := text fields "title"
    url := instanceUrl ++ "/watch?v=" ++ id
    thumbnail
    duration
    isLive := (nonVoid? (fields.get? "liveNow")).isSome
    views
    likes
    uploader := ⟨text fields "author", instanceUrl ++ uploaderPage⟩ }

/-- The song of a video response. -/
def songOfVideo (video : Value) (instanceUrl : String) : Except Fault Song := do
  let fields ← video.fieldsOrFault
  let page := ((nonVoid? (fields.get? "authorUrl")).map display).getD (channelPage fields)
  songWith fields instanceUrl page

/-- The song of an entry of a list of videos. -/
def songOfEntry (entry : Keyed Value) (instanceUrl : String) : Except Fault Song :=
  songWith entry instanceUrl (channelPage entry)

/-- The songs related to a video, at most so many. -/
def relatedSongs (video : Value) (instanceUrl : String) (limit : Nat) :
    Except Fault (List Song) := do
  let entries ← objects ((← video.fieldsOrFault).get? "recommendedVideos")
  (entries.take limit).mapM fun entry => songOfEntry entry instanceUrl

/-! ## Playlists and searches -/

/-- The playlist of a playlist response. -/
def playlist (data : Value) (instanceUrl : String) : Except Fault Playlist := do
  let fields ← data.fieldsOrFault
  let author := (fields.get? "authorId").getD (.str "")
  let videos ← objects (fields.get? "videos")
  let songs ← videos.mapM fun video => songOfEntry (video.put "authorId" author) instanceUrl
  let id := text fields "playlistId"
  let thumbnail ← bestThumbnail (videos.head?.bind (·.get? "videoThumbnails"))
  return {
    id
    name := text fields "title"
    url := instanceUrl ++ "/playlist?list=" ++ id
    songs
    thumbnail }

/-- The id of the first video that a search found. -/
def firstVideoId? : Value → Option String
  | .list (first :: _) => (nonVoid? (first.get? "videoId")).map display
  | _ => none

/-! ## Laws -/

/-- What is kept on the way through a list: it is larger than everything in front of it, and nothing
    behind it is larger. -/
theorem foldl_largest {α : Type} (best : α × Int) (entries : List (α × Int)) :
    let chosen := entries.foldl (fun best e => if best.2 < e.2 then e else best) best
    ∃ front back, best :: entries = front ++ chosen :: back ∧
      (∀ e ∈ front, e.2 < chosen.2) ∧ ∀ e ∈ back, e.2 ≤ chosen.2 := by
  induction entries generalizing best with
  | nil => exact ⟨[], [], rfl, nofun, nofun⟩
  | cons e rest ih =>
    simp only [List.foldl_cons]
    split
    · next hlt =>
      obtain ⟨front, back, hsplit, hfront, hback⟩ := ih e
      generalize rest.foldl _ e = chosen at hsplit hfront hback ⊢
      -- the new entry is in front of what is kept at last, or it is kept
      have he : e.2 ≤ chosen.2 := by
        rcases front with _ | ⟨first, front⟩
        · exact Int.le_of_eq (congrArg Prod.snd (List.cons.inj hsplit).1)
        · rw [(List.cons.inj hsplit).1]
          exact Int.le_of_lt (hfront first List.mem_cons_self)
      refine ⟨best :: front, back, congrArg (best :: ·) hsplit, ?_, hback⟩
      exact List.forall_mem_cons.mpr ⟨Int.lt_of_lt_of_le hlt he, hfront⟩
    · next hle =>
      obtain ⟨front, back, hsplit, hfront, hback⟩ := ih best
      generalize rest.foldl _ best = chosen at hsplit hfront hback ⊢
      have he : e.2 ≤ best.2 := Int.not_lt.mp hle
      rcases front with _ | ⟨first, front⟩
      · obtain ⟨rfl, rfl⟩ := List.cons.inj hsplit
        exact ⟨[], e :: rest, rfl, nofun, List.forall_mem_cons.mpr ⟨he, hback⟩⟩
      · obtain ⟨rfl, rfl⟩ := List.cons.inj hsplit
        obtain ⟨hbest, hfront⟩ := List.forall_mem_cons.mp hfront
        refine ⟨best :: e :: front, back, rfl, ?_, hback⟩
        exact List.forall_mem_cons.mpr
          ⟨hbest, List.forall_mem_cons.mpr ⟨Int.lt_of_le_of_lt he hbest, hfront⟩⟩

theorem largest?_eq_none {α : Type} {entries : List (α × Int)} (h : largest? entries = none) :
    entries = [] := by
  cases entries with
  | nil => rfl
  | cons first rest => cases h

/-- **The first of the largest entries** is chosen. -/
theorem largest?_first {α : Type} {entries : List (α × Int)} {best : α × Int}
    (h : largest? entries = some best) : ∃ front back, entries = front ++ best :: back ∧
      (∀ e ∈ front, e.2 < best.2) ∧ ∀ e ∈ back, e.2 ≤ best.2 := by
  cases entries with
  | nil => cases h
  | cons first rest =>
    cases h
    exact foldl_largest first rest

end Response

end StreamResolver
