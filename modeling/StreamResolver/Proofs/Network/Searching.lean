/-
  What a search asks an instance for.

  The query of a search is text that a user wrote, and it becomes a part of a URL.  It is percent
  coded there, slashes excepted, so the sign of a query, of a parameter, of an assignment or of a
  fragment never comes out of it (`mem_inUrl`).  Reading the URL therefore finds the parameters that
  were put there, whatever the query is: the query itself and the kind of results
  (`parse_searchParameters`).

  The address of the instance comes first.  It is the name of the instance with at most a scheme put
  in front and with characters taken away at its ends (`not_mem_normalizeInstance`), so a name without
  these signs leaves the first question mark to the search.
-/
import StreamResolver.Proofs.Network.OneExchange
import StreamResolver.Proofs.Url.Splitting

namespace StreamResolver

open Text

/-! ## Addresses of instances -/

/-- The address of an instance has the characters of its name and those of a scheme. -/
theorem not_mem_normalizeInstance {name : String} {c : Char} (hname : c ∉ name.toList)
    (hscheme : c ∉ "https://".toList) : c ∉ (normalizeInstance name).toList := by
  have htrimmed : c ∉ trimEnd (· == '/') (trim name.toList) := fun h =>
    hname ((trim_isInfix _).subset ((trimEnd_isPrefix _ _).subset h))
  unfold normalizeInstance
  generalize trimEnd (· == '/') (trim name.toList) = trimmed at htrimmed ⊢
  show c ∉ (if _ then String.ofList trimmed else "https://" ++ String.ofList trimmed).toList
  split
  · rwa [String.toList_ofList]
  · intro h
    rw [String.toList_append, @String.toList_ofList trimmed] at h
    exact (List.mem_append.mp h).elim hscheme htrimmed

namespace Instance

open Network

variable (i : Instance)

@[simp] theorem url_named (name : String) (timeout : Number) :
    (named name timeout).url = normalizeInstance name := by
  rw [named]

theorem slash_transparent : Percent.Transparent (· == '/') := by
  intro c hc
  obtain rfl : c = '/' := by simpa using hc
  decide

/-- What a text in a URL consists of. -/
theorem mem_inUrl {s : String} {c : Char} (h : c ∈ (inUrl s).toList) :
    Percent.alwaysSafe c = true ∨ c = '/' ∨ c = '%' := by
  rw [inUrl, String.toList_ofList] at h
  rcases Percent.mem_encode h with hsafe | ⟨hslash, -⟩ | hpercent
  · exact .inl hsafe
  · exact .inr (.inl (by simpa using hslash))
  · exact .inr (.inr hpercent)

theorem not_mem_inUrl {c : Char} (hsafe : Percent.alwaysSafe c = false) (hslash : c ≠ '/')
    (hpercent : c ≠ '%') (s : String) : c ∉ (inUrl s).toList := by
  intro h
  rcases mem_inUrl h with h | h | h
  · rw [hsafe] at h
    cases h
  · exact hslash h
  · exact hpercent h

/-- A text in a URL reads back. -/
theorem unescape_inUrl (s : String) : Query.unescape (inUrl s).toList = s.toList := by
  rw [inUrl, String.toList_ofList]
  exact Query.unescape_encode slash_transparent (by decide) s.toList

/-! ## The URL of a search -/

/-- The parameters of a search as they are written. -/
def searchParameters (query : String) : List Char :=
  joinWith ['&'] ["q=".toList ++ (inUrl query).toList, "type=video".toList]

theorem toList_searchUrl (query : String) : (i.searchUrl query).toList =
    (i.url.toList ++ "/api/v1/search".toList) ++ '?' :: searchParameters query := by
  have hpath : ("search?q=" ++ inUrl query ++ "&type=video").toList.dropWhile (· == '/') =
      "search?q=".toList ++ ((inUrl query).toList ++ "&type=video".toList) := by
    simp
  rw [searchUrl, apiUrl, String.toList_append, String.toList_append, String.toList_ofList, hpath]
  simp [searchParameters, joinWith]

/-- A sign that is not in the name of an instance does not stand in front of the parameters. -/
theorem sign_not_mem_front {name : String} {c : Char} (hc : c = '?' ∨ c = '#')
    (hname : c ∉ name.toList) (timeout : Number) :
    c ∉ (named name timeout).url.toList ++ "/api/v1/search".toList := by
  rw [url_named, List.mem_append, not_or]
  refine ⟨not_mem_normalizeInstance hname ?_, ?_⟩ <;> rcases hc with rfl | rfl <;> decide

/-- **The parameters of a search** are its query and the kind of results. -/
theorem parse_searchParameters (query : String) : Query.parse (searchParameters query) =
    [("q".toList, query.toList), ("type".toList, "video".toList)] := by
  have hand : '&' ∉ (inUrl query).toList :=
    not_mem_inUrl (by decide) (by decide) (by decide) query
  have hpieces : ∀ piece ∈ ["q=".toList ++ (inUrl query).toList, "type=video".toList],
      '&' ∉ piece := by
    intro piece hpiece
    rcases List.mem_cons.mp hpiece with rfl | hpiece
    · simpa using hand
    · rw [List.mem_singleton.mp hpiece]
      decide
  have hquery : Query.readPair ("q=".toList ++ (inUrl query).toList) =
      ("q".toList, query.toList) := by
    show (Query.unescape ['q'], Query.unescape (inUrl query).toList) = _
    rw [unescape_inUrl]
    rfl
  rw [Query.parse, searchParameters, splitOn_joinWith (by simp) hpieces]
  show [Query.readPair ("q=".toList ++ (inUrl query).toList), Query.readPair "type=video".toList] = _
  rw [hquery]
  rfl

/-- No character of a search opens a fragment or is dropped from a URL. -/
theorem searchParameters_plain (query : String) :
    '#' ∉ searchParameters query ∧ ∀ c ∈ searchParameters query, Url.isDropped c = false := by
  have hfixed : ∀ c ∈ "q=&type=video".toList, c ≠ '#' ∧ Url.isDropped c = false :=
    forall_mem_of_all (by decide)
  have hall : ∀ c ∈ searchParameters query, c ≠ '#' ∧ Url.isDropped c = false := by
    intro c hc
    have hc' : c ∈ "q=&type=video".toList ∨ c ∈ (inUrl query).toList := by
      simp only [searchParameters, joinWith, List.mem_append] at hc
      rcases hc with ((hc | hc) | hc) | hc
      · exact .inl (List.mem_append_left _ hc)
      · exact .inr hc
      · exact .inl (List.mem_append_right "q=".toList (List.mem_append_left _ hc))
      · exact .inl (List.mem_append_right "q=&".toList hc)
    rcases hc' with hc | hc
    · exact hfixed c hc
    rcases mem_inUrl hc with hsafe | rfl | rfl
    · have hne := Percent.alwaysSafe_ne hsafe
      simp [Url.isDropped, hne]
    · decide
    · decide
  exact ⟨fun h => (hall '#' h).1 rfl, fun c hc => (hall c hc).2⟩

/-- What a URL asks for: what stands behind its first question mark. -/
def askedBy (url : String) : List Char := (cutAt '?' url.toList).2.getD []

/-- **A search asks for its query and nothing else**: it sends one request, and the parameters of its
    URL are the query, whatever it is, and the kind of results; there is no fragment, and another query
    makes another URL. -/
theorem search_within_parameter {name : String} (hquestion : '?' ∉ name.toList)
    (hhash : '#' ∉ name.toList) (timeout : Number) (query : String) :
    Exchanges (.read ((named name timeout).searchUrl query) timeout)
        (fun _ t => (named name timeout).search t query) ∧
      Query.parse (askedBy ((named name timeout).searchUrl query)) =
        [("q".toList, query.toList), ("type".toList, "video".toList)] ∧
      (∀ u, Url.split ((named name timeout).searchUrl query).toList = .ok u →
        u.query = askedBy ((named name timeout).searchUrl query)) ∧
      '#' ∉ ((named name timeout).searchUrl query).toList ∧
      ∀ query', (named name timeout).searchUrl query' = (named name timeout).searchUrl query →
        query' = query := by
  have hfront := sign_not_mem_front (.inl rfl) hquestion timeout
  have hfront' := sign_not_mem_front (.inr rfl) hhash timeout
  have hasked : ∀ query, askedBy ((named name timeout).searchUrl query) = searchParameters query := by
    intro query
    rw [askedBy, toList_searchUrl, cutAt_append hfront]
    rfl
  have hparse : ∀ query, Query.parse (askedBy ((named name timeout).searchUrl query)) =
      [("q".toList, query.toList), ("type".toList, "video".toList)] := by
    intro query
    rw [hasked, parse_searchParameters]
  obtain ⟨hplain, hundropped⟩ := searchParameters_plain query
  refine ⟨(named name timeout).search_exchanges query, hparse query, fun u hu => ?_, ?_,
    fun query' hsame => ?_⟩
  · rw [hasked]
    refine Url.query_of_split hu ?_ hplain hundropped
    exact ⟨_, toList_searchUrl _ query, hfront, hfront'⟩
  · rw [toList_searchUrl, List.mem_append, List.mem_cons, not_or, not_or]
    exact ⟨hfront', by decide, hplain⟩
  · have hpairs := hparse query'
    rw [hsame, hparse query] at hpairs
    simp only [List.cons.injEq, Prod.mk.injEq, String.toList_inj, true_and, and_true] at hpairs
    exact hpairs.symm

theorem search_within_parameter_signs :
    '?' ∉ " yewtu.be/".toList ∧ '#' ∉ " yewtu.be/".toList ∧
      Query.parse (askedBy ((named " yewtu.be/" (.int 5)).searchUrl "a&type=x#é+%2F?")) =
        [("q".toList, "a&type=x#é+%2F?".toList), ("type".toList, "video".toList)] ∧
      '#' ∉ ((named " yewtu.be/" (.int 5)).searchUrl "a&type=x#é+%2F?").toList ∧
      (named " yewtu.be/" (.int 5)).searchUrl "a" ≠
        (named " yewtu.be/" (.int 5)).searchUrl "a&type=x#é+%2F?" := by
  have hquestion : '?' ∉ " yewtu.be/".toList := by decide
  have hhash : '#' ∉ " yewtu.be/".toList := by decide
  obtain ⟨-, hparse, -, hplain, hdistinct⟩ :=
    search_within_parameter hquestion hhash (.int 5) "a&type=x#é+%2F?"
  exact ⟨hquestion, hhash, hparse, hplain, fun h => absurd (hdistinct "a" h) (by decide)⟩

end Instance

end StreamResolver
