/-
  What an instance is asked for by an id.

  The id of a video or a playlist is text out of a link, and it becomes a part of a path.  Percent
  coding leaves no question mark and no hash sign in it, so the path does not end in the id, and the
  part reads back as the id (`StandsFor`).

  Slashes are the exception: they are kept as they are.  So the id stands for as many segments as it
  has itself, each of which reads back as its own, and it is one segment exactly when it holds no slash
  (`id_asked_in_segments`).  An id with slashes, which a link can give in its query, asks for a path of
  its own making.
-/
import StreamResolver.Proofs.Network.Searching

namespace StreamResolver

open Text

/-- The address of an instance is a site of one of two schemes. -/
theorem normalizeInstance_site (name : String) : ∃ scheme ∈ ["http", "https"], ∃ site,
    (normalizeInstance name).toList = scheme.toList ++ ':' :: '/' :: '/' :: site := by
  unfold normalizeInstance
  generalize trimEnd (· == '/') (trim name.toList) = trimmed
  dsimp only
  split
  · next hscheme =>
    rw [String.toList_ofList]
    rcases Bool.or_eq_true _ _ ▸ hscheme with h | h
    · obtain ⟨site, hsite⟩ := List.isPrefixOf_iff_prefix.mp h
      exact ⟨"http", by simp, site, hsite.symm⟩
    · obtain ⟨site, hsite⟩ := List.isPrefixOf_iff_prefix.mp h
      exact ⟨"https", by simp, site, hsite.symm⟩
  · refine ⟨"https", by simp, trimmed, ?_⟩
    rw [String.toList_append, @String.toList_ofList trimmed]
    rfl

namespace Instance

open Network

/-! ## Ids in a path -/

/-- A part of a path stands for an id: nothing in it ends the path, and it reads back as the id, as a
    whole and segment by segment. -/
structure StandsFor (part id : List Char) : Prop where
  question : '?' ∉ part
  hash : '#' ∉ part
  decodes : Percent.decode part = id
  segments : (splitOn '/' part).map Percent.decode = splitOn '/' id

theorem standsFor_inUrl (id : String) : StandsFor (inUrl id).toList id.toList where
  question := not_mem_inUrl (by decide) (by decide) (by decide) id
  hash := not_mem_inUrl (by decide) (by decide) (by decide) id
  decodes := by
    rw [inUrl, String.toList_ofList]
    exact Percent.decode_encode slash_transparent id.toList
  segments := by
    have hpieces : splitOn '/' (inUrl id).toList =
        (splitOn '/' id.toList).map (Percent.encode (· == '/')) := by
      rw [inUrl, String.toList_ofList]
      exact Percent.splitOn_encode rfl (by decide) (by decide) id.toList
    rw [hpieces, List.map_map]
    refine (List.map_congr_left fun piece _ => ?_).trans (List.map_id _)
    exact Percent.decode_encode slash_transparent piece

/-- Slashes are the ones of the id. -/
theorem slash_mem_inUrl (id : String) : '/' ∈ (inUrl id).toList ↔ '/' ∈ id.toList := by
  rw [inUrl, String.toList_ofList]
  constructor
  · intro h
    rcases Percent.mem_encode h with h | ⟨-, h⟩ | h
    · cases h
    · exact h
    · cases h
  · exact fun h => List.mem_flatMap.mpr ⟨'/', h, by decide⟩

/-! ## The URL that is asked for -/

/-- The parts of the interface that are asked by an id. -/
def kinds : List String := ["videos/", "playlists/"]

theorem toList_apiUrl (i : Instance) {kind : String} (hkind : kind ∈ kinds) (part : String) :
    (i.apiUrl (kind ++ part)).toList =
      i.url.toList ++ '/' :: ("api/v1/".toList ++ kind.toList ++ part.toList) := by
  have hstart : (kind ++ part).toList.dropWhile (· == '/') = kind.toList ++ part.toList := by
    rw [String.toList_append]
    simp only [kinds, List.mem_cons, List.not_mem_nil, or_false] at hkind
    rcases hkind with rfl | rfl <;> rfl
  rw [apiUrl, String.toList_append, String.toList_append, String.toList_ofList, hstart]
  simp

/-- Nothing that is asked by an id ends the path or is dropped from it. -/
theorem plain_of_id {kind : String} (hkind : kind ∈ kinds) (id : String) :
    ∀ c ∈ "api/v1/".toList ++ kind.toList ++ (inUrl id).toList,
      c ≠ '?' ∧ c ≠ '#' ∧ Url.isDropped c = false := by
  have hfixed : ∀ c ∈ "api/v1/".toList ++ kind.toList,
      c ≠ '?' ∧ c ≠ '#' ∧ Url.isDropped c = false := by
    simp only [kinds, List.mem_cons, List.not_mem_nil, or_false] at hkind
    rcases hkind with rfl | rfl <;> exact forall_mem_of_all (by decide)
  intro c hc
  rcases List.mem_append.mp hc with hc | hc
  · exact hfixed c hc
  · rcases mem_inUrl hc with hsafe | rfl | rfl
    · have hne := Percent.alwaysSafe_ne hsafe
      have hmark : c ≠ '?' := by rintro rfl; revert hsafe; decide
      simp [Url.isDropped, hne, hmark]
    · decide
    · decide

/-- What is asked by an id is a path below the interface of the instance. -/
theorem path_of_id {name : String} (hquestion : '?' ∉ name.toList) (hhash : '#' ∉ name.toList)
    (timeout : Number) {kind : String} (hkind : kind ∈ kinds) (id : String) {u : Url}
    (hu : Url.split ((named name timeout).apiUrl (kind ++ inUrl id)).toList = .ok u) :
    "/api/v1/".toList ++ kind.toList ++ (inUrl id).toList <:+ u.path ∧ u.query = [] ∧
      u.fragment = [] := by
  obtain ⟨scheme, hscheme, site, hsite⟩ := normalizeInstance_site name
  rw [toList_apiUrl _ hkind, url_named, hsite, List.append_assoc] at hu
  have hschemes : ∀ scheme ∈ ["http", "https"],
      Url.isScheme scheme.toList = true ∧ lower scheme.toList = scheme.toList := by
    decide +kernel
  have hname : ∀ c ∈ site, c ∈ (normalizeInstance name).toList := by
    intro c hc
    rw [hsite]
    simp [hc]
  have hplain : ∀ c ∈ site, c ≠ '?' ∧ c ≠ '#' := by
    refine fun c hc => ⟨?_, ?_⟩
    · rintro rfl
      exact not_mem_normalizeInstance hquestion (by decide) (hname _ hc)
    · rintro rfl
      exact not_mem_normalizeInstance hhash (by decide) (hname _ hc)
  have htail := plain_of_id hkind id
  exact Url.path_of_split hu (hschemes scheme hscheme).1 (hschemes scheme hscheme).2 hplain
    (fun c hc => ⟨(htail c hc).1, (htail c hc).2.1⟩) (fun c hc => (htail c hc).2.2)

/-- **An id is asked for in its own segments**, whatever it is: a video and a playlist are one request
    each, and behind their kind stands nothing but a part that reads back as the id.  That is one
    segment exactly when the id holds no slash, and the whole is a path below the interface of the
    instance, without a query or a fragment. -/
theorem id_asked_in_segments (name : String) (timeout : Number) (id : String) :
    (Exchanges (.read ((named name timeout).apiUrl ("videos/" ++ inUrl id)) timeout)
        fun _ t => (named name timeout).video t id) ∧
      (Exchanges (.read ((named name timeout).apiUrl ("playlists/" ++ inUrl id)) timeout)
        fun _ t => (named name timeout).playlist t id) ∧
      StandsFor (inUrl id).toList id.toList ∧
      ('/' ∉ (inUrl id).toList ↔ '/' ∉ id.toList) ∧
      ('?' ∉ name.toList → '#' ∉ name.toList → ∀ kind ∈ kinds, ∀ u,
        Url.split ((named name timeout).apiUrl (kind ++ inUrl id)).toList = .ok u →
          "/api/v1/".toList ++ kind.toList ++ (inUrl id).toList <:+ u.path ∧
            u.query = [] ∧ u.fragment = []) := by
  refine ⟨(named name timeout).video_exchanges id, (named name timeout).playlist_exchanges id,
    standsFor_inUrl id, not_congr (slash_mem_inUrl id), ?_⟩
  exact fun hquestion hhash kind hkind u hu => path_of_id hquestion hhash timeout hkind id hu

theorem id_asked_in_segments_signs :
    '?' ∉ " yewtu.be/".toList ∧ '#' ∉ " yewtu.be/".toList ∧ "videos/" ∈ kinds ∧
      ∃ u, Url.split ((named " yewtu.be/" (.int 5)).apiUrl ("videos/" ++ inUrl "a?b#é%2F")).toList =
          .ok u ∧
        "/api/v1/".toList ++ "videos/".toList ++ (inUrl "a?b#é%2F").toList <:+ u.path ∧
        u.query = [] ∧ u.fragment = [] ∧
        '/' ∉ (inUrl "a?b#é%2F").toList ∧
        Percent.decode (inUrl "a?b#é%2F").toList = "a?b#é%2F".toList := by
  have hquestion : '?' ∉ " yewtu.be/".toList := by decide
  have hhash : '#' ∉ " yewtu.be/".toList := by decide
  have hkind : "videos/" ∈ kinds := by decide
  have hu : Url.split ((named " yewtu.be/" (.int 5)).apiUrl ("videos/" ++ inUrl "a?b#é%2F")).toList =
      .ok ⟨"https".toList, "yewtu.be".toList, "/api/v1/videos/a%3Fb%23%C3%A9%252F".toList, [], []⟩ :=
    Fallible.eq_ok_of_toOption (by decide +kernel)
  obtain ⟨-, -, hstands, hslash, hpath⟩ := id_asked_in_segments " yewtu.be/" (.int 5) "a?b#é%2F"
  obtain ⟨hends, hquery, hfragment⟩ := hpath hquestion hhash "videos/" hkind _ hu
  exact ⟨hquestion, hhash, hkind, _, hu, hends, hquery, hfragment, hslash.mpr (by decide),
    hstands.decodes⟩

/-- Slashes in an id lead to another path. -/
example : (named "yewtu.be" (.int 5)).videoUrl "../playlists/PL1" =
    "https://yewtu.be/api/v1/videos/../playlists/PL1" := by decide +kernel

end Instance

end StreamResolver
