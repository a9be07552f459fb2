/-
  The ids that a link names.

  A link may name several things: a parameter can be given more than once, and a path may have an id
  behind more than one lead.  `videoIds`, `playlistIds` and `channelIds` list all of them, in the
  order in which they are looked for.  What is extracted from a link is the first of the list
  (`videoId?_eq`, `playlistId?_eq`, `channel?_eq`), and a link is taken for a playlist when it has
  playlist ids and no value of the parameter for videos (`isPlaylist_iff`).
-/
import StreamResolver.Media.Link
import StreamResolver.Proofs.Pattern.Places
import StreamResolver.Proofs.Text.Joining

namespace StreamResolver.Link

open Text Pattern

/-! ## Ids at a place -/

/-- The value of a parameter that begins here, behind a question mark or an ampersand. -/
def valueHere? (key : String) : List Char → Option (List Char)
  | [] => none
  | c :: rest =>
    if c = '?' ∨ c = '&' then
      (dropFront? key.toList rest).bind fun rest =>
        (dropFront? ['='] rest).bind (front? (.noneOf ['&', '#']))
    else none

/-- The id that stands behind a lead that begins here. -/
def idHere? (lead : String) (s : List Char) : Option (List Char) :=
  (dropFront? lead.toList s).bind (front? (.noneOf ['/', '?', '#']))

/-- What follows a fixed text is read behind it. -/
theorem run_literal_then {text : List Char} {q : Pattern} {read? : List Char → Option (List Char)}
    {bound : Nat} {after : List Char} {caps : Captures} (hbound : after.length ≤ bound)
    (h : ∀ pos before rest, rest.length ≤ bound →
      (q.run bound some ⟨pos, before, rest, caps⟩).map (·.captured? 1) = (read? rest).map some)
    (pos : Nat) (before : List Char) :
    ((literal text).run bound (q.run bound some) ⟨pos, before, after, caps⟩).map (·.captured? 1) =
      ((dropFront? text after).bind read?).map some := by
  rw [run_literal]
  rcases hdrop : dropFront? text after with _ | rest
  · rfl
  · rw [Option.bind_some, Option.bind_some]
    refine h _ _ rest ?_
    rw [dropFront?_eq_some_iff.mp hdrop, List.length_append] at hbound
    omega

/-- A key with its value is read as that value. -/
theorem assignment_reads (key : String) {bound : Nat} {after : List Char}
    (hbound : after.length ≤ bound) (pos : Nat) (before : List Char) (caps : Captures) :
    ((sequence [.word key, .word "=", queryId]).run bound some ⟨pos, before, after, caps⟩).map
        (·.captured? 1) =
      ((dropFront? key.toList after).bind fun rest =>
        (dropFront? ['='] rest).bind (front? (.noneOf ['&', '#']))).map some := by
  refine run_literal_then hbound (fun pos before rest hrest => ?_) pos before
  refine run_literal_then hrest (fun pos before rest hrest => ?_) pos before
  exact run_capture_some1 hrest 1 pos before caps

theorem valueOf_readsAs (key : String) : (valueOf key).ReadsAs (valueHere? key) := by
  intro bound pos before after hbound
  rcases after with _ | ⟨c, rest⟩
  · rfl
  · have hset : (CharSet.ofChars ['?', '&']).has c = true ↔ c = '?' ∨ c = '&' := by simp
    show (if (CharSet.ofChars ['?', '&']).has c = true then
      (sequence [.word key, .word "=", queryId]).run bound some ⟨pos + 1, c :: before, rest, []⟩
      else none).map _ = _
    rw [valueHere?]
    by_cases hc : c = '?' ∨ c = '&'
    · rw [if_pos (hset.mpr hc), if_pos hc]
      exact assignment_reads key (Nat.le_of_succ_le hbound) (pos + 1) (c :: before) []
    · rw [if_neg (mt hset.mp hc), if_neg hc]
      rfl

theorem behind_readsAs (lead : String) :
    (Pattern.seq (.word lead) pathId).ReadsAs (idHere? lead) := by
  intro bound pos before after hbound
  refine run_literal_then hbound (fun pos before rest hrest => ?_) pos before
  exact run_capture_some1 hrest 1 pos before []

/-! ## All ids of a link -/

/-- The values of a parameter. -/
def values (key : String) (url : List Char) : List (List Char) := readings (valueHere? key) url

/-- The ids behind leads, those of the first lead first. -/
def idsBehind (leads : List String) (url : List Char) : List (List Char) :=
  leads.flatMap fun lead => readings (idHere? lead) url

/-- The leads that a video id follows in a path. -/
def videoLeads : List String :=
  ["youtu.be/", "youtube.com/shorts/", "youtube.com/live/", "youtube.com/embed/"]

/-- The leads that the id of a channel, a user or a handle follows in a path. -/
def channelLeads : List String := ["/channel/", "/c/", "/user/", "/@"]

/-- The videos that the path of a link names. -/
def pathVideoIds (url : List Char) : List (List Char) := idsBehind videoLeads (withoutQuery url)

/-- The videos that a link names. -/
def videoIds (url : List Char) : List (List Char) := values "v" url ++ pathVideoIds url

/-- The playlists that a link names. -/
def playlistIds (url : List Char) : List (List Char) := values "list" url

/-- The channels, users and handles that a link names. -/
def channelIds (url : List Char) : List (List Char) := idsBehind channelLeads (withoutQuery url)

/-! ## What is extracted -/

/-- A capture is the first of the readings. -/
theorem capture?_eq {p : Pattern} {read? : List Char → Option (List Char)} (h : p.ReadsAs read?)
    (url : List Char) : capture? p url = (readings read? url).head? := by
  have hsearch := h.search? url
  unfold capture?
  rcases hfound : p.search? url with _ | found
  · rw [hfound] at hsearch
    exact (Option.map_eq_none_iff.mp hsearch.symm).symm
  · rw [hfound] at hsearch
    obtain ⟨id, hid, hgroup⟩ := Option.map_eq_some_iff.mp hsearch.symm
    rw [hid, Option.bind_some]
    exact hgroup.symm

theorem capture?_valueOf (key : String) (url : List Char) :
    capture? (valueOf key) url = (values key url).head? := capture?_eq (valueOf_readsAs key) url

theorem behindFirst_eq (leads : List String) (url : List Char) :
    behindFirst leads url = (idsBehind leads url).head? := by
  rw [behindFirst, idsBehind, List.head?_flatMap]
  exact congrArg (leads.findSome? ·) (funext fun lead => capture?_eq (behind_readsAs lead) url)

/-- **The video** that is extracted is the first that the link names. -/
theorem videoId?_eq (url : List Char) : videoId? url = (videoIds url).head? := by
  rw [videoId?, capture?_valueOf, behindFirst_eq, videoIds, List.head?_append]
  rcases (values "v" url).head? with _ | id <;> rfl

theorem playlistId?_eq (url : List Char) : playlistId? url = (playlistIds url).head? :=
  capture?_valueOf "list" url

theorem channel?_eq (url : List Char) : channel? url = (channelIds url).head? :=
  behindFirst_eq channelLeads (withoutQuery url)

/-- **A link is taken for a playlist** when it names one and has no parameter for videos. -/
theorem isPlaylist_iff (url : List Char) :
    isPlaylist url = true ↔ playlistIds url ≠ [] ∧ values "v" url = [] := by
  rw [isPlaylist, (valueOf_readsAs "v").occursIn, playlistId?_eq, Bool.and_eq_true, Bool.not_not,
    List.isEmpty_iff]
  rcases playlistIds url with _ | ⟨id, more⟩ <;> simp [values]

/-! ## No id is empty -/

theorem ne_nil_of_mem_values {key : String} {url id : List Char} (h : id ∈ values key url) :
    id ≠ [] := by
  obtain ⟨s, hs⟩ := exists_of_mem_readings h
  unfold valueHere? at hs
  split at hs
  · cases hs
  · split at hs
    · obtain ⟨rest, -, hs⟩ := Option.bind_eq_some_iff.mp hs
      obtain ⟨rest, -, hs⟩ := Option.bind_eq_some_iff.mp hs
      exact (front?_eq_some hs).2
    · cases hs

theorem ne_nil_of_mem_idsBehind {leads : List String} {url id : List Char}
    (h : id ∈ idsBehind leads url) : id ≠ [] := by
  obtain ⟨lead, -, h⟩ := List.mem_flatMap.mp h
  obtain ⟨s, hs⟩ := exists_of_mem_readings h
  obtain ⟨rest, -, hs⟩ := Option.bind_eq_some_iff.mp hs
  exact (front?_eq_some hs).2

theorem filter_of_ne_nil {id? : Option (List Char)} (h : ∀ id, id? = some id → id ≠ []) :
    id?.filter (!·.isEmpty) = id? := by
  rcases id? with _ | id
  · rfl
  · exact Option.filter_eq_some_iff.mpr ⟨rfl, by simpa using h id rfl⟩

theorem filter_videoId? (url : List Char) : (videoId? url).filter (!·.isEmpty) = videoId? url := by
  refine filter_of_ne_nil fun id h => ?_
  rw [videoId?_eq] at h
  rcases List.mem_append.mp (List.mem_of_head? h) with hid | hid
  · exact ne_nil_of_mem_values hid
  · exact ne_nil_of_mem_idsBehind hid

theorem filter_playlistId? (url : List Char) :
    (playlistId? url).filter (!·.isEmpty) = playlistId? url := by
  refine filter_of_ne_nil fun id h => ?_
  rw [playlistId?_eq] at h
  exact ne_nil_of_mem_values (List.mem_of_head? h)

end StreamResolver.Link
