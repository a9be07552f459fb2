/-
  The parameters of a link.

  The links of watch pages and playlist pages name things by parameters: behind one question mark
  stand assignments `key=value` with an ampersand between them.  An id is not looked for in such a
  list, but anywhere in the text of the link, behind `?key=` or `&key=`.

  The crux is that the text still tells the parameters apart.  Neither a question mark nor an
  ampersand stands in an address, a key or a value, so a value can be read only where a parameter
  begins (`readings_behind`); and a key goes up to the first equals sign, so what is read there is the
  value of this parameter or nothing (`valueHere?_parameter`).  What can be read in the whole link is
  therefore the list of the values under exactly that key, the empty ones left out (`values_link`),
  and an id is the first of them (`query_read_in_order`).
-/
import StreamResolver.Proofs.Media.Naming

namespace StreamResolver.Link

open Text Pattern

/-! ## Links with parameters -/

/-- A parameter: a key without signs of a query, and a value that may hold equals signs. -/
structure Parameter where
  key : List Char
  value : List Char
  key_plain : ∀ c ∈ key, c ∉ ['?', '&', '#', '=']
  value_plain : ∀ c ∈ value, c ∉ ['?', '&', '#']

namespace Parameter

/-- The parameter as it is written. -/
def text (p : Parameter) : List Char := p.key ++ '=' :: p.value

/-- The parameter has exactly this key, and its value is not empty. -/
def gives (key : String) (p : Parameter) : Bool := p.key == key.toList && !p.value.isEmpty

variable (p : Parameter)

theorem equals_not_mem_key : '=' ∉ p.key := fun h => p.key_plain '=' h (by decide)

/-- No parameter begins inside of another one. -/
theorem text_plain : ∀ c ∈ p.text, c ≠ '?' ∧ c ≠ '&' := by
  intro c hc
  rcases List.mem_append.mp hc with hc | hc
  · have hplain := p.key_plain c hc
    exact ⟨fun h => hplain (by simp [h]), fun h => hplain (by simp [h])⟩
  rcases List.mem_cons.mp hc with rfl | hc
  · decide
  · have hplain := p.value_plain c hc
    exact ⟨fun h => hplain (by simp [h]), fun h => hplain (by simp [h])⟩

end Parameter

/-- The pages whose links name things by parameters. -/
inductive ParameterPage where
  | watch
  | playlist
  deriving DecidableEq, Repr

namespace ParameterPage

/-- The address of a page. -/
def address : ParameterPage → List Char
  | watch => "https://www.youtube.com/watch".toList
  | playlist => "https://www.youtube.com/playlist".toList

/-- The link to a page with the given parameters. -/
def link (page : ParameterPage) (params : List Parameter) : List Char :=
  page.address ++ '?' :: joinWith ['&'] (params.map Parameter.text)

theorem address_plain (page : ParameterPage) : ∀ c ∈ page.address, c ≠ '?' ∧ c ≠ '&' := by
  cases page <;> exact forall_mem_of_all (by decide)

end ParameterPage

/-! ## Where a value can be read -/

/-- Nothing is read where no parameter begins. -/
theorem readings_behind (key : String) {front : List Char} (h : ∀ c ∈ front, c ≠ '?' ∧ c ≠ '&')
    (rest : List Char) :
    readings (valueHere? key) (front ++ rest) = readings (valueHere? key) rest := by
  induction front with
  | nil => rfl
  | cons c front ih =>
    have hc := h c List.mem_cons_self
    have hnone : valueHere? key (c :: (front ++ rest)) = none := by
      rw [valueHere?, if_neg (not_or.mpr hc)]
    rw [List.cons_append, readings, hnone, ih fun x hx => h x (List.mem_cons_of_mem c hx)]
    rfl

/-- A value goes up to the sign of the next parameter. -/
theorem front?_value (p : Parameter) {rest : List Char} (hrest : ∀ c ∈ rest.head?, c = '&') :
    front? (.noneOf ['&', '#']) (p.value ++ rest) = (some p.value).filter (!·.isEmpty) := by
  have hvalue : ∀ c ∈ p.value, (CharSet.noneOf ['&', '#']).has c = true := by
    intro c hc
    have hplain := p.value_plain c hc
    simp only [List.mem_cons, not_or] at hplain
    simp [CharSet.noneOf, hplain.2.1, hplain.2.2.1]
  have hstop : ∀ c ∈ rest.head?, (CharSet.noneOf ['&', '#']).has c = false := by
    intro c hc
    rw [hrest c hc]
    decide
  rw [front?, (span_run hvalue hstop).1]

/-- **Where a parameter begins, its value is read**, if it has the key and the value is not empty. -/
theorem valueHere?_parameter {key : String} (hkey : '=' ∉ key.toList) {sign : Char}
    (hsign : sign = '?' ∨ sign = '&') (p : Parameter) {rest : List Char}
    (hrest : ∀ c ∈ rest.head?, c = '&') :
    valueHere? key (sign :: (p.text ++ rest)) = if p.gives key then some p.value else none := by
  have htext : p.text ++ rest = p.key ++ '=' :: (p.value ++ rest) := by simp [Parameter.text]
  rw [valueHere?, if_pos hsign, htext]
  by_cases hsame : p.key = key.toList
  · have hassigned : dropFront? key.toList (p.key ++ '=' :: (p.value ++ rest)) =
        some ('=' :: (p.value ++ rest)) := dropFront?_eq_some_iff.mpr (by rw [hsame])
    have hequals : dropFront? ['='] ('=' :: (p.value ++ rest)) = some (p.value ++ rest) :=
      dropFront?_eq_some_iff.mpr rfl
    rw [hassigned, Option.bind_some, hequals, Option.bind_some, front?_value p hrest,
      Parameter.gives, hsame]
    cases p.value <;> simp
  · -- the first equals sign ends both keys
    have hother : p.gives key = false := by simp [Parameter.gives, hsame]
    rw [hother, if_neg Bool.false_ne_true]
    refine Option.bind_eq_none_iff.mpr fun behind hbehind => ?_
    refine Option.bind_eq_none_iff.mpr fun value hvalue => ?_
    rw [dropFront?_eq_some_iff] at hbehind hvalue
    rw [hvalue] at hbehind
    exact absurd (append_sep_inj p.equals_not_mem_key hkey hbehind).1 hsame

/-- The values under a key that can be read in a list of parameters. -/
theorem readings_parameters {key : String} (hkey : '=' ∉ key.toList) {sign : Char}
    (hsign : sign = '?' ∨ sign = '&') (params : List Parameter) :
    readings (valueHere? key) (sign :: joinWith ['&'] (params.map Parameter.text)) =
      (params.filter (Parameter.gives key)).map Parameter.value := by
  induction params generalizing sign with
  | nil =>
    have hnone : valueHere? key [sign] = none := by
      rw [valueHere?, if_pos hsign]
      rcases key.toList with _ | ⟨c, rest⟩ <;> rfl
    show (valueHere? key [sign]).toList ++ [] = []
    rw [hnone]
    rfl
  | cons p more ih =>
    -- behind a parameter stands nothing, or the sign of the next one
    obtain ⟨rest, hjoin, hrest, hreadings⟩ : ∃ rest : List Char,
        joinWith ['&'] ((p :: more).map Parameter.text) = p.text ++ rest ∧
          (∀ c ∈ rest.head?, c = '&') ∧
          readings (valueHere? key) rest =
            (more.filter (Parameter.gives key)).map Parameter.value := by
      rcases more with _ | ⟨q, more⟩
      · exact ⟨[], (List.append_nil p.text).symm, by simp, rfl⟩
      · exact ⟨'&' :: joinWith ['&'] ((q :: more).map Parameter.text),
          joinWith_cons ['&'] p.text (by simp), by simp, ih (.inr rfl)⟩
    rw [hjoin, readings, valueHere?_parameter hkey hsign p hrest, readings_behind key p.text_plain,
      hreadings, List.filter_cons]
    split <;> rfl

/-- **The values of a link** are those of its parameters under that key, in order. -/
theorem values_link {key : String} (hkey : '=' ∉ key.toList) (page : ParameterPage)
    (params : List Parameter) :
    values key (page.link params) = (params.filter (Parameter.gives key)).map Parameter.value := by
  rw [values, ParameterPage.link, readings_behind key page.address_plain,
    readings_parameters hkey (.inl rfl)]

/-- The address of such a page names no video. -/
theorem pathVideoIds_link (page : ParameterPage) (params : List Parameter) :
    pathVideoIds (page.link params) = [] := by
  have hquestion : '?' ∉ page.address := fun h => (page.address_plain '?' h).1 rfl
  have haddress : withoutQuery (page.link params) = page.address := by
    rw [withoutQuery, ParameterPage.link, cutAt_append hquestion]
  rw [pathVideoIds, haddress]
  cases page <;> decide

/-! ## The first of them -/

theorem head?_values (key : String) (params : List Parameter) :
    ((params.filter (Parameter.gives key)).map Parameter.value).head? =
      (params.find? (Parameter.gives key)).map Parameter.value := by
  rw [List.head?_map, List.head?_filter]

theorem videoId?_link (page : ParameterPage) (params : List Parameter) :
    videoId? (page.link params) = (params.find? (Parameter.gives "v")).map Parameter.value := by
  rw [videoId?_eq, videoIds, pathVideoIds_link, List.append_nil, values_link (by decide),
    head?_values]

theorem playlistId?_link (page : ParameterPage) (params : List Parameter) :
    playlistId? (page.link params) =
      (params.find? (Parameter.gives "list")).map Parameter.value := by
  rw [playlistId?_eq, playlistIds, values_link (by decide), head?_values]

/-- A parameter with another key does not count, wherever it stands. -/
theorem find?_gives_other {key : String} {p : Parameter} (h : p.key ≠ key.toList)
    (front rest : List Parameter) : (front ++ p :: rest).find? (Parameter.gives key) =
      (front ++ rest).find? (Parameter.gives key) := by
  have hother : p.gives key = false := by simp [Parameter.gives, h]
  rw [List.find?_append, List.find?_append, List.find?_cons, hother]

/-- **Ids are read by the exact key, and the first value that is not empty counts**: for videos, for
    playlists, and for whether a link is taken for a playlist; parameters with other keys, whatever
    they end in, change nothing. -/
theorem query_read_in_order (page : ParameterPage) (params : List Parameter) :
    videoId? (page.link params) = (params.find? (Parameter.gives "v")).map Parameter.value ∧
    playlistId? (page.link params) =
      (params.find? (Parameter.gives "list")).map Parameter.value ∧
    (isPlaylist (page.link params) = true ↔
      (∃ p ∈ params, p.gives "list" = true) ∧ ∀ p ∈ params, p.gives "v" = false) ∧
    ∀ front p rest, params = front ++ p :: rest →
      (p.key ≠ "v".toList → videoId? (page.link params) = videoId? (page.link (front ++ rest))) ∧
      (p.key ≠ "list".toList →
        playlistId? (page.link params) = playlistId? (page.link (front ++ rest))) := by
  refine ⟨videoId?_link page params, playlistId?_link page params, ?playlist, ?other⟩
  case playlist =>
    rw [isPlaylist_iff, playlistIds, values_link (by decide), values_link (by decide)]
    simp
  case other =>
    rintro front p rest rfl
    refine ⟨fun hvideo => ?_, fun hlist => ?_⟩
    · rw [videoId?_link, videoId?_link, find?_gives_other hvideo]
    · rw [playlistId?_link, playlistId?_link, find?_gives_other hlist]

/-- Parameters of which the first only ends in the key, and the second has no value. -/
def sampleParameters : List Parameter :=
  [⟨"rev".toList, "no".toList, forall_mem_of_all (by decide), forall_mem_of_all (by decide)⟩,
    ⟨"v".toList, [], forall_mem_of_all (by decide), forall_mem_of_all (by decide)⟩,
    ⟨"list".toList, "PL=v".toList, forall_mem_of_all (by decide), forall_mem_of_all (by decide)⟩,
    ⟨"v".toList, "abc".toList, forall_mem_of_all (by decide), forall_mem_of_all (by decide)⟩]

theorem query_read_in_order_sample :
    ParameterPage.watch.link sampleParameters =
        "https://www.youtube.com/watch?rev=no&v=&list=PL=v&v=abc".toList ∧
      videoId? (ParameterPage.watch.link sampleParameters) = some "abc".toList ∧
      playlistId? (ParameterPage.watch.link sampleParameters) = some "PL=v".toList ∧
      isPlaylist (ParameterPage.watch.link sampleParameters) = false ∧
      videoId? (ParameterPage.watch.link sampleParameters) =
        videoId? (ParameterPage.watch.link sampleParameters.tail) := by
  obtain ⟨hvideo, hplaylist, htaken, hother⟩ := query_read_in_order .watch sampleParameters
  refine ⟨by decide, hvideo.trans rfl, hplaylist.trans rfl, ?_, ?_⟩
  · rw [← Bool.not_eq_true, htaken]
    rintro ⟨-, hnone⟩
    have hgiven : ∃ p ∈ sampleParameters, p.gives "v" = true := by decide
    obtain ⟨p, hp, hgives⟩ := hgiven
    rw [hnone p hp] at hgives
    cases hgives
  · exact (hother [] _ _ rfl).1 (by decide)

end StreamResolver.Link
