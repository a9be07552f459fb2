/-
  Which responses can be read, and as what.

  Each mapping of a response gives one value, in which whatever is missing or malformed has become
  neutral: 0 for a count (`number`), the empty text for a name, no entry for an element that is no
  object (`itemsOf`).  Two things are not neutral but fail the mapping: an infinite number where a
  count is read, and a value that cannot be gone through where a list is read.  So each mapping is
  described by its value and by the condition that neither of the two is met on the way, and
  `responses_read` puts the four together.
-/
import StreamResolver.Media.Response
import StreamResolver.Proofs.Fallible

namespace StreamResolver.Response

open Fallible Value

/-! ## Fields -/

/-- The number that a field gives, if it gives one. -/
def number? : Option Value → Option Int
  | some (.int n) => some n
  | some (.bool b) => some (if b then 1 else 0)
  | some (.float x) => x.truncate?
  | some (.str s) => (Text.readInteger s.toList).toOption
  | _ => none

/-- The number that a field gives, else 0. -/
def number (v : Option Value) : Int := (number? v).getD 0

/-- The field is an infinite number. -/
def IsInfinite (v : Option Value) : Prop := ∃ negative, v = some (.float (.infinity negative))

/-- The field is void or can be gone through. -/
def Walkable (v : Option Value) : Prop :=
  ∀ w, nonVoid? v = some w →
    (∃ items, w = .list items) ∨ (∃ s, w = .str s) ∨ ∃ fields, w = .object fields

/-- The objects in a list; any other field holds none. -/
def itemsOf : Option Value → List (Keyed Value)
  | some (.list items) => items.filterMap fields?
  | _ => []

theorem count_gives (fields : Keyed Value) (key : String) :
    GivesWhen (count fields key) (¬ IsInfinite (fields.get? key)) (number (fields.get? key)) := by
  unfold count
  rcases fields.get? key with _ | v
  · exact givesWhen_of nofun rfl
  · rw [Option.getD_some]
    unfold Value.count
    split
    case h_3 negative => exact givesWhen_not (not_not_intro ⟨negative, rfl⟩) _
    case h_4 x hfinite =>
      refine givesWhen_of ?_ rfl
      rintro ⟨negative, hx⟩
      cases hx
      exact hfinite negative rfl
    all_goals exact givesWhen_of nofun rfl

theorem itemsOf_void {v : Option Value} (h : nonVoid? v = none) : itemsOf v = [] := by
  rcases v with _ | v
  · rfl
  · rw [nonVoid?, Option.filter_eq_none_iff] at h
    rcases v with _ | _ | _ | _ | _ | items | _
    case list =>
      have hempty : items = [] := by simpa [truthy] using h _ rfl
      rw [hempty]
      rfl
    all_goals rfl

theorem objects_gives (v : Option Value) : GivesWhen (objects v) (Walkable v) (itemsOf v) := by
  -- neither the characters of a text nor the keys of an object are objects
  have hnone : ∀ {α : Type} (g : α → Value), (∀ a, fields? (g a) = none) → ∀ as : List α,
      (as.map g).filterMap fields? = [] := by
    intro α g hg as
    rw [List.filterMap_map, List.filterMap_eq_nil_iff]
    exact fun a _ => hg a
  unfold objects elements
  rcases hv : nonVoid? v with _ | w
  · refine givesWhen_of (fun w hw => ?_) (itemsOf_void hv).symm
    rw [hv] at hw
    cases hw
  · have hwalk : Walkable v ↔ (∃ items, w = .list items) ∨ (∃ s, w = .str s) ∨
        ∃ fields, w = .object fields := by
      rw [Walkable, hv]
      exact ⟨fun h => h w rfl, fun h w' hw' => Option.some.inj hw' ▸ h⟩
    obtain rfl : v = some w := (Option.filter_eq_some_iff.mp hv).1
    rcases w with _ | b | n | x | s | items | fields
    case str => exact givesWhen_of (hwalk.mpr (.inr (.inl ⟨s, rfl⟩))) (hnone _ (fun _ => rfl) _)
    case list => exact givesWhen_of (hwalk.mpr (.inl ⟨items, rfl⟩)) rfl
    case object =>
      exact givesWhen_of (hwalk.mpr (.inr (.inr ⟨fields, rfl⟩))) (hnone _ (fun _ => rfl) _)
    all_goals
      refine givesWhen_not (fun h => ?_) _
      rcases hwalk.mp h with ⟨_, hw⟩ | ⟨_, hw⟩ | ⟨_, hw⟩ <;> cases hw

/-! ## Formats -/

/-- The first number above 0 under the given keys, else 0. -/
def rate (format : Keyed Value) (keys : List String) : Int :=
  ((keys.map fun key => number (format.get? key)).find? (0 < ·)).getD 0

/-- An infinite number only stands behind one above 0. -/
def RateReadable (format : Keyed Value) (keys : List String) : Prop :=
  ∀ front key back, keys = front ++ key :: back → IsInfinite (format.get? key) →
    ∃ earlier ∈ front, 0 < number (format.get? earlier)

theorem rateReadable_cons (format : Keyed Value) (key : String) (keys : List String) :
    RateReadable format (key :: keys) ↔ ¬ IsInfinite (format.get? key) ∧
      (0 < number (format.get? key) ∨ RateReadable format keys) := by
  constructor
  · intro h
    refine ⟨fun hinfinite => ?_, ?_⟩
    · obtain ⟨earlier, hearlier, -⟩ := h [] key keys rfl hinfinite
      cases hearlier
    · by_cases hpos : 0 < number (format.get? key)
      · exact .inl hpos
      · refine .inr fun front other back hkeys hinfinite => ?_
        obtain ⟨earlier, hearlier, hrate⟩ := h (key :: front) other back (by rw [hkeys]; rfl) hinfinite
        rcases List.mem_cons.mp hearlier with rfl | hearlier
        · exact absurd hrate hpos
        · exact ⟨earlier, hearlier, hrate⟩
  · rintro ⟨hfinite, hrest⟩ front other back hkeys hinfinite
    rcases front with _ | ⟨first, front⟩
    · obtain ⟨rfl, -⟩ := List.cons.inj hkeys
      exact absurd hinfinite hfinite
    · obtain ⟨rfl, hbehind⟩ := List.cons.inj hkeys
      rcases hrest with hpos | hrest
      · exact ⟨key, List.mem_cons_self, hpos⟩
      · obtain ⟨earlier, hearlier, hrate⟩ := hrest front other back hbehind hinfinite
        exact ⟨earlier, List.mem_cons_of_mem key hearlier, hrate⟩

theorem firstPositive_gives (format : Keyed Value) (keys : List String) :
    GivesWhen (firstPositive format keys) (RateReadable format keys) (rate format keys) := by
  induction keys with
  | nil => exact givesWhen_of (fun front key back h => by cases front <;> cases h) rfl
  | cons key keys ih =>
    rw [firstPositive]
    refine GivesWhen.iff (.bind (Q := 0 < number (format.get? key) ∨ RateReadable format keys)
      (count_gives format key) ?_) (rateReadable_cons format key keys).symm
    rw [rate, List.map_cons, List.find?_cons]
    split
    · next hpos =>
      rw [decide_eq_true hpos]
      exact givesWhen_of (.inl hpos) rfl
    · next hpos =>
      rw [decide_eq_false hpos]
      exact ih.iff (or_iff_right hpos).symm

/-- The keys of what a format is rated by, in the order in which they are tried. -/
def rateKeys : List String := ["bitrate", "contentLength", "clen"]

/-- The rate of a format with a URL can be read; a format without one is not looked into. -/
def FormatReadable (format : Keyed Value) : Prop :=
  ∀ url, format.get? "url" = some (.str url) → url ≠ "" → RateReadable format rateKeys

/-- A list of formats can be read, or there is nothing that could be a list. -/
def FormatsReadable (formats : Option Value) : Prop :=
  Walkable formats ∧ ∀ format ∈ itemsOf formats, FormatReadable format

/-- The candidate of a format with a URL. -/
def candidateOf? (presigned : Bool) (format : Keyed Value) : Option Candidate :=
  match format.get? "url" with
  | some (.str url) =>
    if url = "" then none
    else some {
      url
      mimeType := textOrEmpty ((nonVoid? (format.get? "mimeType")).or (format.get? "type"))
      encoding := text format "encoding"
      bitrate := rate format rateKeys
      itag := text format "itag"
      isManifest := Link.isManifest url.toList
      presigned }
  | _ => none

/-- The candidates of a list of formats. -/
def candidatesIn (presigned : Bool) (formats : Option Value) : List Candidate :=
  (itemsOf formats).filterMap (candidateOf? presigned)

theorem candidate?_gives (presigned : Bool) (format : Keyed Value) :
    GivesWhen (candidate? presigned format) (FormatReadable format)
      (candidateOf? presigned format) := by
  unfold candidate? candidateOf? FormatReadable
  rcases format.get? "url" with _ | v
  · exact givesWhen_of nofun rfl
  · rcases v with _ | _ | _ | _ | url | _ | _
    case str =>
      by_cases hempty : url = ""
      · subst hempty
        refine givesWhen_of (fun url hurl hne => ?_) rfl
        cases hurl
        exact absurd rfl hne
      · simp only [if_neg hempty]
        refine (firstPositive_gives format rateKeys).map.iff ⟨fun h url hurl _ => h, fun h => ?_⟩
        exact h url rfl hempty
    all_goals exact givesWhen_of nofun rfl

theorem candidatesOf_gives (presigned : Bool) (formats : Option Value) :
    GivesWhen (candidatesOf presigned formats) (FormatsReadable formats)
      (candidatesIn presigned formats) := by
  have hread := (givesWhen_mapM (candidate?_gives presigned) (itemsOf formats)).map
    (g := fun read => read.filterMap id)
  rw [List.filterMap_map] at hread
  exact (objects_gives formats).bind hread

theorem candidates_gives (fields : Keyed Value) :
    GivesWhen (candidates (.object fields))
      (FormatsReadable (fields.get? "formatStreams") ∧ FormatsReadable (fields.get? "adaptiveFormats"))
      ⟨candidatesIn true (fields.get? "formatStreams"),
        candidatesIn false (fields.get? "adaptiveFormats")⟩ :=
  (candidatesOf_gives true (fields.get? "formatStreams")).bind
    ((candidatesOf_gives false (fields.get? "adaptiveFormats")).map)

/-! ## Thumbnails and songs -/

/-- A list of thumbnails can be read: no size in it is infinite. -/
def ThumbnailsReadable (thumbnails : Option Value) : Prop :=
  Walkable thumbnails ∧ ∀ t ∈ itemsOf thumbnails,
    ¬ IsInfinite (t.get? "width") ∧ ¬ IsInfinite (t.get? "height")

/-- The URL of the largest thumbnail, and the empty text without thumbnails. -/
def thumbnailIn (thumbnails : Option Value) : String :=
  match largest? ((itemsOf thumbnails).map fun t =>
      (t, number (t.get? "width") * number (t.get? "height"))) with
  | some (best, _) => text best "url"
  | none => ""

/-- The thumbnails and counts of a video can be read. -/
def SongReadable (fields : Keyed Value) : Prop :=
  ThumbnailsReadable (fields.get? "videoThumbnails") ∧
    ∀ key ∈ ["lengthSeconds", "viewCount", "likeCount"], ¬ IsInfinite (fields.get? key)

/-- The song of a video whose uploader has the given page. -/
def songIn (fields : Keyed Value) (instanceUrl uploaderPage : String) : Song where
  id := text fields "videoId"
  name := text fields "title"
  url := instanceUrl ++ "/watch?v=" ++ text fields "videoId"
  thumbnail := thumbnailIn (fields.get? "videoThumbnails")
  duration := number (fields.get? "lengthSeconds")
  isLive := (nonVoid? (fields.get? "liveNow")).isSome
  views := number (fields.get? "viewCount")
  likes := number (fields.get? "likeCount")
  uploader := ⟨text fields "author", instanceUrl ++ uploaderPage⟩

theorem measured_gives (t : Keyed Value) :
    GivesWhen (measured t) (¬ IsInfinite (t.get? "width") ∧ ¬ IsInfinite (t.get? "height"))
      (t, number (t.get? "width") * number (t.get? "height")) :=
  (count_gives t "width").bind ((count_gives t "height").map)

theorem bestThumbnail_gives (thumbnails : Option Value) :
    GivesWhen (bestThumbnail thumbnails) (ThumbnailsReadable thumbnails)
      (thumbnailIn thumbnails) := by
  have hread := givesWhen_mapM measured_gives (itemsOf thumbnails)
  refine ((objects_gives thumbnails).bind (hread.bind (Q := True) ?_)).iff
    (and_congr_right fun _ => and_iff_left trivial)
  unfold thumbnailIn
  generalize largest? ((itemsOf thumbnails).map _) = chosen
  rcases chosen with _ | ⟨best, area⟩ <;> exact gives _

theorem songWith_gives (fields : Keyed Value) (instanceUrl uploaderPage : String) :
    GivesWhen (songWith fields instanceUrl uploaderPage) (SongReadable fields)
      (songIn fields instanceUrl uploaderPage) := by
  refine ((bestThumbnail_gives (fields.get? "videoThumbnails")).bind
    ((count_gives fields "lengthSeconds").bind ((count_gives fields "viewCount").bind
      ((count_gives fields "likeCount").map)))).iff ?_
  simp [SongReadable]

theorem songOfVideo_gives (fields : Keyed Value) (instanceUrl : String) :
    GivesWhen (songOfVideo (.object fields) instanceUrl) (SongReadable fields)
      (songIn fields instanceUrl
        (((nonVoid? (fields.get? "authorUrl")).map display).getD (channelPage fields))) :=
  songWith_gives fields instanceUrl _

theorem songOfEntry_gives (entry : Keyed Value) (instanceUrl : String) :
    GivesWhen (songOfEntry entry instanceUrl) (SongReadable entry)
      (songIn entry instanceUrl (channelPage entry)) :=
  songWith_gives entry instanceUrl _

/-! ## Playlists -/

/-- The videos of a playlist can be read. -/
def PlaylistReadable (fields : Keyed Value) : Prop :=
  Walkable (fields.get? "videos") ∧ ∀ video ∈ itemsOf (fields.get? "videos"), SongReadable video

/-- An entry of a playlist, with the channel of the playlist. -/
def entryOf (fields video : Keyed Value) : Keyed Value :=
  video.put "authorId" ((fields.get? "authorId").getD (.str ""))

/-- The playlist of a response. -/
def playlistIn (fields : Keyed Value) (instanceUrl : String) : Playlist where
  id := text fields "playlistId"
  name := text fields "title"
  url := instanceUrl ++ "/playlist?list=" ++ text fields "playlistId"
  songs := (itemsOf (fields.get? "videos")).map fun video =>
    songIn (entryOf fields video) instanceUrl (channelPage (entryOf fields video))
  thumbnail := thumbnailIn ((itemsOf (fields.get? "videos")).head?.bind (·.get? "videoThumbnails"))

/-- The channel of an entry does not matter for whether it can be read. -/
theorem songReadable_entryOf (fields video : Keyed Value) :
    SongReadable (entryOf fields video) ↔ SongReadable video := by
  have hother : ∀ key, key ≠ "authorId" → (entryOf fields video).get? key = video.get? key := by
    intro key hkey
    rw [entryOf, Keyed.get?_put, if_neg hkey.symm]
  rw [SongReadable, SongReadable, hother _ (by decide)]
  refine and_congr_right fun _ => forall₂_congr fun key hkey => ?_
  rw [hother key (by rintro rfl; revert hkey; decide)]

theorem playlist_gives (fields : Keyed Value) (instanceUrl : String) :
    GivesWhen (playlist (.object fields) instanceUrl) (PlaylistReadable fields)
      (playlistIn fields instanceUrl) := by
  have hsongs := givesWhen_mapM (C := SongReadable) (fun video =>
    (songOfEntry_gives (entryOf fields video) instanceUrl).iff (songReadable_entryOf fields video))
    (itemsOf (fields.get? "videos"))
  refine ((objects_gives (fields.get? "videos")).bind
    (hsongs.bind (bestThumbnail_gives _).map)).iff ?_
  -- the thumbnail is one of the first video, which is read anyway
  refine and_congr_right fun _ => and_iff_left_of_imp fun h => ?_
  rcases hvideos : itemsOf (fields.get? "videos") with _ | ⟨video, more⟩
  · exact ⟨nofun, nofun⟩
  · exact (h video (hvideos ▸ List.mem_cons_self)).1

/-- **What can be read and as what**: each mapping gives the value in which missing and malformed
    fields are neutral, unless a count that it reads is infinite or a list that it reads cannot be
    gone through; then, and only then, it fails. -/
theorem responses_read (fields : Keyed Value) (instanceUrl : String) :
    (∀ c, candidates (.object fields) = .ok c ↔
      (FormatsReadable (fields.get? "formatStreams") ∧
        FormatsReadable (fields.get? "adaptiveFormats")) ∧
      c = ⟨candidatesIn true (fields.get? "formatStreams"),
        candidatesIn false (fields.get? "adaptiveFormats")⟩) ∧
    (∀ s, songOfVideo (.object fields) instanceUrl = .ok s ↔ SongReadable fields ∧
      s = songIn fields instanceUrl
        (((nonVoid? (fields.get? "authorUrl")).map display).getD (channelPage fields))) ∧
    (∀ s, songOfEntry fields instanceUrl = .ok s ↔ SongReadable fields ∧
      s = songIn fields instanceUrl (channelPage fields)) ∧
    ∀ p, playlist (.object fields) instanceUrl = .ok p ↔ PlaylistReadable fields ∧
      p = playlistIn fields instanceUrl :=
  ⟨candidates_gives fields, songOfVideo_gives fields instanceUrl,
    songOfEntry_gives fields instanceUrl, playlist_gives fields instanceUrl⟩

/-- Nothing is read where a list should be and is a number, and no song with an infinite length. -/
example : candidates (.object [("formatStreams", .int 5)]) = .error .wrongKind ∧
    songOfEntry [("lengthSeconds", .float (.infinity false))] "" = .error .infiniteNumber :=
  ⟨rfl, rfl⟩

end StreamResolver.Response
