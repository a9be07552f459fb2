/-
  When no stream is found, and what is counted then.

  A selection that finds no stream has gone through everything: there was no presigned sound to play,
  each adaptive one was probed in its turn and missed (`ProbedInVain`), and no candidate may be
  given out unvalidated, or there is none.  And in that situation nothing else can come of a selection
  (`exhausted_exactly`).

  The counts of the failure are sums over several lists: the formats of the response, the candidates
  read from them, the ranked ones, the attempts.  They agree with the record of the exchanges, because
  there is one attempt for each ranked candidate and one exchange for each attempt, and with the
  response, because a format that is no candidate has no URL that could lead to a manifest.
-/
import StreamResolver.Proofs.Fallible
import StreamResolver.Proofs.Stream.Recording

namespace StreamResolver

/-! ## Counting candidates -/

namespace Candidate

/-- Each candidate has one codec. -/
theorem countP_codecs (cs : List Candidate) :
    cs.countP (·.codec == .opus) + cs.countP (·.codec == .aac) + cs.countP (·.codec == .other) =
      cs.length := by
  induction cs with
  | nil => rfl
  | cons c cs ih =>
    simp only [List.countP_cons, List.length_cons]
    rcases c.codec with _ | _ | _
    · rw [if_neg (by decide), if_neg (by decide), if_pos (by decide)]
      omega
    · rw [if_neg (by decide), if_pos (by decide), if_neg (by decide)]
      omega
    · rw [if_pos (by decide), if_neg (by decide), if_neg (by decide)]
      omega

end Candidate

/-! ## Counting manifests -/

namespace Response

open Fallible

/-- The URL of a format, if it is well formed: a text that is not empty. -/
def formatUrl? (format : Keyed Value) : Option String :=
  match format.get? "url" with
  | some (.str url) => if url = "" then none else some url
  | _ => none

/-- How many formats have a URL that leads to a manifest. -/
def manifestCount (formats : List (Keyed Value)) : Nat :=
  formats.countP fun format => (formatUrl? format).any fun url => Link.isManifest url.toList

/-- A format is a candidate exactly if it is well formed. -/
theorem candidate?_formatUrl? {presigned : Bool} {format : Keyed Value} {read : Option Candidate}
    (h : candidate? presigned format = .ok read) :
    formatUrl? format = read.map Candidate.url ∧
      ∀ x, read = some x → x.isManifest = Link.isManifest x.url.toList := by
  rw [candidate?] at h
  rw [formatUrl?]
  rcases hvalue : format.get? "url" with _ | v
  · rw [hvalue] at h
    cases h
    exact ⟨rfl, nofun⟩
  rw [hvalue] at h
  cases v with
  | str url =>
    dsimp only at h ⊢
    by_cases hempty : url = ""
    · rw [if_pos hempty] at h
      cases h
      exact ⟨if_pos hempty, nofun⟩
    · rw [if_neg hempty] at h
      obtain ⟨rate, -, h⟩ := exists_of_bind_eq_ok h
      cases h
      refine ⟨if_neg hempty, fun x hx => ?_⟩
      cases hx
      rfl
  | _ =>
    cases h
    exact ⟨rfl, nofun⟩

theorem countP_manifests {presigned : Bool} {formats : List (Keyed Value)}
    {read : List (Option Candidate)} (h : formats.mapM (candidate? presigned) = .ok read) :
    (read.filterMap id).countP (·.isManifest) = manifestCount formats := by
  induction formats generalizing read with
  | nil =>
    cases h
    rfl
  | cons format formats ih =>
    rw [List.mapM_cons] at h
    obtain ⟨first, hfirst, h⟩ := exists_of_bind_eq_ok h
    obtain ⟨others, hothers, h⟩ := exists_of_bind_eq_ok h
    cases h
    obtain ⟨hurl, hmanifest⟩ := candidate?_formatUrl? hfirst
    have hrest : manifestCount (format :: formats) = manifestCount formats +
        if (formatUrl? format).any fun url => Link.isManifest url.toList then 1 else 0 :=
      List.countP_cons
    rw [hrest, ← ih hothers, hurl]
    rcases first with _ | x
    · rfl
    · have hfirst' : (some x :: others).filterMap id = x :: others.filterMap id := rfl
      rw [hfirst', List.countP_cons, hmanifest x rfl]
      rfl

theorem candidatesOf_countP {presigned : Bool} {formats : Option Value} {cs : List Candidate}
    (h : candidatesOf presigned formats = .ok cs) :
    ∃ entries, Value.objects formats = .ok entries ∧
      cs.countP (·.isManifest) = manifestCount entries := by
  obtain ⟨entries, hentries, h⟩ := exists_of_bind_eq_ok h
  obtain ⟨read, hread, h⟩ := exists_of_bind_eq_ok h
  cases h
  exact ⟨entries, hentries, countP_manifests hread⟩

/-- **The manifests among the candidates** are the manifests among the formats. -/
theorem candidates_countP {video : Value} {fields : Keyed Value} {c : Candidates}
    (hfields : video.fieldsOrFault = .ok fields) (hc : candidates video = .ok c) :
    ∃ presigned adaptive, Value.objects (fields.get? "formatStreams") = .ok presigned ∧
      Value.objects (fields.get? "adaptiveFormats") = .ok adaptive ∧
      (c.presigned ++ c.adaptive).countP (·.isManifest) = manifestCount (presigned ++ adaptive) := by
  obtain ⟨fields', hfields', hc⟩ := exists_of_bind_eq_ok hc
  rw [hfields] at hfields'
  cases hfields'
  obtain ⟨first, hfirst, hc⟩ := exists_of_bind_eq_ok hc
  obtain ⟨second, hsecond, hc⟩ := exists_of_bind_eq_ok hc
  cases hc
  obtain ⟨presigned, hpresigned, hcount⟩ := candidatesOf_countP hfirst
  obtain ⟨adaptive, hadaptive, hcount'⟩ := candidatesOf_countP hsecond
  refine ⟨presigned, adaptive, hpresigned, hadaptive, ?_⟩
  rw [List.countP_append, hcount, hcount', manifestCount, manifestCount, manifestCount,
    List.countP_append]

end Response

/-! ## Exhaustion -/

namespace Stream

open Network Cipher

variable {σ : Type} {sel : Selector} {access : Access σ}

/-- Each of the candidates was probed in its turn, none was reached, and these are the exchanges. -/
def ProbedInVain (sel : Selector) (access : Access σ) (s s' : Session σ)
    (candidates : List Candidate) (exchanges : List (Request × Exchange)) : Prop :=
  ∃ attempts, Course sel access s attempts s' ∧ attempts.map Attempt.candidate = candidates ∧
    (∀ a ∈ attempts, a.reached = false) ∧ exchanges = attempts.map (Attempt.exchanged sel)

/-- The failure that there is no stream. -/
def IsShortage (r : Except Failure Selection) : Prop :=
  ∃ videoId counts, r = .error (.extractor (.noPlayableStream videoId counts))

/-- The counts of a failure add up: they count the candidates of the response by codec, the exchanges
    that were made, and the formats of the response that are manifests. -/
def CountsAddUp (fields : Keyed Value) (c : Response.Candidates)
    (exchanges : List (Request × Exchange)) (counts : Keyed Int) : Prop :=
  ∃ opus aac other probed manifests : Nat,
    counts = [("presigned", 0), ("opus", (opus : Int)), ("aac", (aac : Int)),
      ("other", (other : Int)), ("probed", (probed : Int)),
      ("manifests_excluded", (manifests : Int))] ∧
    opus + aac + other = probed ∧ probed = c.adaptive.countP Candidate.isPlayable ∧
    probed = exchanges.length ∧
    ∃ presigned adaptive, Value.objects (fields.get? "formatStreams") = .ok presigned ∧
      Value.objects (fields.get? "adaptiveFormats") = .ok adaptive ∧
      manifests = Response.manifestCount (presigned ++ adaptive)

namespace Selector

/-- A presigned sound is selected, if there is one. -/
theorem select_presigned {s : Session σ} {video : Value} {fields : Keyed Value}
    {c : Response.Candidates} (hfields : video.fieldsOrFault = .ok fields)
    (hc : Response.candidates video = .ok c) {x : Candidate} (hx : x ∈ c.presigned)
    (hplayable : x.isPlayable = true) : ¬ IsShortage (sel.select access video s).result := by
  obtain ⟨events, hselect⟩ := select_eq sel access hfields hc s
  rcases hranked : Candidate.rankAudio c.presigned with _ | ⟨best, rest⟩
  · have hin := Candidate.mem_rankAudio.mpr ⟨hx, hplayable⟩
    rw [hranked] at hin
    simp at hin
  · have hfirst : (Ranked.ofCandidates c).presigned = best :: rest := hranked
    obtain ⟨events', hrun⟩ :=
      selectRanked_presigned sel access (Response.text fields "videoId") hfirst s
    rw [hselect, hrun]
    rintro ⟨videoId, counts, hfailed⟩
    cases hfailed

/-- The attempts of a selection without a presigned sound, with the record of their exchanges. -/
theorem select_record {s : Session σ} {video : Value} {fields : Keyed Value}
    {c : Response.Candidates} (hfields : video.fieldsOrFault = .ok fields)
    (hc : Response.candidates video = .ok c)
    (hurls : ∀ x ∈ c.adaptive, ∃ parts, Url.split x.url.toList = .ok parts)
    (htame : Tame sel access s) (hnone : ∀ x ∈ c.presigned, x.isPlayable = false) :
    ∃ attempts : List (Attempt σ), Course sel access s attempts (sel.select access video s).state ∧
      sel.exchanges access video s = attempts.map (Attempt.exchanged sel) ∧
      Verdict sel (Response.text fields "videoId") c attempts
        (sel.select access video s).result := by
  have hurls' : ∀ x ∈ Candidate.rankAudio c.adaptive,
      ∃ parts, Url.split x.url.toList = .ok parts :=
    fun x hx => hurls x (Candidate.mem_rankAudio.mp hx).1
  obtain ⟨attempts, r, s', events, hrun, hcourse, hverdict⟩ := selectRanked_adaptive
    (Response.text fields "videoId") htame.recording hurls' (Candidate.rankAudio_eq_nil hnone)
  obtain ⟨events', hselect⟩ := select_eq sel access.recording hfields hc (recorded s)
  rw [hrun] at hselect
  have hsame := select_recording sel access video s
  rw [hselect] at hsame
  refine ⟨attempts.map Attempt.unrecorded, ?_, ?_, ?_⟩
  · rw [hsame]
    exact hcourse.unrecorded
  · rw [exchanges, hselect, hcourse.exchanges_eq]
    rfl
  · rw [hsame]
    exact hverdict.unrecorded

/-- An attempt whose exchange is that of one that missed has missed. -/
theorem missed_of_exchanged {missed : List (Attempt σ)} (hmissed : ∀ b ∈ missed, b.reached = false)
    {a : Attempt σ} (ha : a.exchanged sel ∈ missed.map (Attempt.exchanged sel)) :
    a.reached = false := by
  obtain ⟨b, hb, heq⟩ := List.mem_map.mp ha
  rw [← hmissed b hb, Attempt.reached, Attempt.reached, (Prod.mk.inj heq).2]

/-- If all candidates were probed in vain, a verdict is a shortage, unless one may be given out. -/
theorem Verdict.shortage {s s' : Session σ} {videoId : String} {c : Response.Candidates}
    {attempts : List (Attempt σ)} {r : Except Failure Selection}
    (h : Verdict sel videoId c attempts r)
    (hvain : ProbedInVain sel access s s' (Candidate.rankAudio c.adaptive)
      (attempts.map (Attempt.exchanged sel)))
    (hstop : (∀ x ∈ c.adaptive, x.isPlayable = false) ∨ sel.allowUnvalidated = false) :
    IsShortage r := by
  obtain ⟨missed, -, -, hmissed, hrecord⟩ := hvain
  cases h with
  | adaptive passed a hlast hpassed hreached hcandidates =>
    have hmem : a.exchanged sel ∈ missed.map (Attempt.exchanged sel) := by
      rw [← hrecord, hlast]
      simp
    have hmiss := missed_of_exchanged hmissed hmem
    rw [hreached] at hmiss
    cases hmiss
  | fallback first others hfirst hmissed' hallowed hcandidates =>
    rcases hstop with hempty | hrefused
    · rw [Candidate.rankAudio_eq_nil hempty, hfirst] at hcandidates
      cases hcandidates
    · rw [hallowed] at hrefused
      cases hrefused
  | none hstop' hmissed' hcandidates => exact ⟨_, _, rfl⟩

/-- A shortage counts what was there, and there was one exchange for each playable candidate. -/
theorem shortage_addsUp {video : Value} {fields : Keyed Value} {c : Response.Candidates}
    (hfields : video.fieldsOrFault = .ok fields) (hc : Response.candidates video = .ok c)
    (hnone : ∀ x ∈ c.presigned, x.isPlayable = false) {attempts : List (Attempt σ)}
    (hcandidates : attempts.map Attempt.candidate = Candidate.rankAudio c.adaptive) :
    CountsAddUp fields c (attempts.map (Attempt.exchanged sel)) (shortage c attempts.length) := by
  obtain ⟨presigned, adaptive, hpresigned, hadaptive, hmanifests⟩ :=
    Response.candidates_countP hfields hc
  have hlength : (Candidate.rankAudio c.adaptive).length = attempts.length := by
    rw [← hcandidates, List.length_map]
  refine ⟨_, _, _, attempts.length, _, ?_,
    (Candidate.countP_codecs (Candidate.rankAudio c.adaptive)).trans hlength, ?_, ?_,
    presigned, adaptive, hpresigned, hadaptive, hmanifests⟩
  · rw [Stream.shortage, Candidate.rankAudio_eq_nil hnone]
    rfl
  · rw [← hlength, Candidate.length_rankAudio]
  · rw [List.length_map]

/-- **No stream is found exactly when everything is exhausted**, for every response whose candidates
    can be read and whose URLs can be split; and the failure names the video and counts what was
    there. -/
theorem exhausted_exactly (sel : Selector) (access : Access σ) (s : Session σ) (video : Value)
    {fields : Keyed Value} {c : Response.Candidates} (hfields : video.fieldsOrFault = .ok fields)
    (hc : Response.candidates video = .ok c)
    (hurls : ∀ x ∈ c.adaptive, ∃ parts, Url.split x.url.toList = .ok parts)
    (htame : Tame sel access s) :
    (IsShortage (sel.select access video s).result ↔
      (∀ x ∈ c.presigned, x.isPlayable = false) ∧
      ProbedInVain sel access s (sel.select access video s).state (Candidate.rankAudio c.adaptive)
        (sel.exchanges access video s) ∧
      ((∀ x ∈ c.adaptive, x.isPlayable = false) ∨ sel.allowUnvalidated = false)) ∧
    ∀ videoId counts, (sel.select access video s).result =
        .error (.extractor (.noPlayableStream videoId counts)) →
      videoId = Response.text fields "videoId" ∧
        CountsAddUp fields c (sel.exchanges access video s) counts := by
  have hnone : IsShortage (sel.select access video s).result →
      ∀ x ∈ c.presigned, x.isPlayable = false := by
    intro hshort x hx
    rcases hplayable : x.isPlayable with _ | _
    · rfl
    · exact absurd hshort (select_presigned hfields hc hx hplayable)
  refine ⟨⟨fun hshort => ?_, ?_⟩, fun videoId counts hfailed => ?_⟩
  · obtain ⟨attempts, hcourse, hexchanges, hverdict⟩ :=
      select_record hfields hc hurls htame (hnone hshort)
    obtain ⟨videoId, counts, hfailed⟩ := hshort
    rw [hfailed] at hverdict
    cases hverdict with
    | none hstop hmissed hcandidates =>
      refine ⟨hnone ⟨_, _, hfailed⟩, ⟨attempts, hcourse, hcandidates, hmissed, hexchanges⟩, ?_⟩
      refine hstop.imp_left fun hempty x hx => ?_
      rcases hplayable : x.isPlayable with _ | _
      · rfl
      · have hranked := Candidate.mem_rankAudio.mpr ⟨hx, hplayable⟩
        rw [← hcandidates, hempty] at hranked
        simp at hranked
  · rintro ⟨hunsigned, hvain, hstop⟩
    obtain ⟨attempts, -, hexchanges, hverdict⟩ := select_record hfields hc hurls htame hunsigned
    rw [hexchanges] at hvain
    exact hverdict.shortage hvain hstop
  · have hunsigned := hnone ⟨_, _, hfailed⟩
    obtain ⟨attempts, -, hexchanges, hverdict⟩ := select_record hfields hc hurls htame hunsigned
    rw [hfailed] at hverdict
    rw [hexchanges]
    cases hverdict with
    | none hstop hmissed hcandidates =>
      exact ⟨rfl, shortage_addsUp hfields hc hunsigned hcandidates⟩

end Selector

/-- A video of one sound, which is ciphered, and of a manifest in each list. -/
def unreachableSounds : Value :=
  .object [("videoId", .str "v"),
    ("formatStreams", .list [
      .object [("url", .str "https://h/all.m3u8"), ("type", .str "audio/mp4"), ("bitrate", .int 9)]]),
    ("adaptiveFormats", .list [
      .object [("url", .str "https://h/a?n=x"), ("type", .str "audio/webm; codecs=opus"),
        ("bitrate", .int 2)],
      .object [("url", .str "https://h/dash/b"), ("type", .str "audio/mp4"),
        ("bitrate", .int 9)]])]

/-- The network on which no sound is reachable, and nothing can be read. -/
def unreachableAccess : Access (List String) := ⟨oneReachable "https://h/", refusing⟩

/-- The sound was probed in vain and may not be given out, so there is none. -/
theorem exhausted_exactly_unreachable :
    (Selector.select { allowUnvalidated := false } unreachableAccess unreachableSounds
        { world := [] }).result =
      .error (.extractor (.noPlayableStream "v" [("presigned", 0), ("opus", 1), ("aac", 0),
        ("other", 0), ("probed", 1), ("manifests_excluded", 2)])) ∧
    ProbedInVain { allowUnvalidated := false } unreachableAccess { world := [] }
      (Selector.select { allowUnvalidated := false } unreachableAccess unreachableSounds
        { world := [] }).state
      (Candidate.rankAudio (candidatesOf unreachableSounds).adaptive)
      (Selector.exchanges { allowUnvalidated := false } unreachableAccess unreachableSounds
        { world := [] }) ∧
    CountsAddUp (fieldsOf unreachableSounds) (candidatesOf unreachableSounds)
      (Selector.exchanges { allowUnvalidated := false } unreachableAccess unreachableSounds
        { world := [] })
      [("presigned", 0), ("opus", 1), ("aac", 0), ("other", 0), ("probed", 1),
        ("manifests_excluded", 2)] := by
  have hfields : unreachableSounds.fieldsOrFault = .ok (fieldsOf unreachableSounds) := rfl
  have hc : Response.candidates unreachableSounds = .ok (candidatesOf unreachableSounds) := by
    decide +kernel
  have hurls : ∀ x ∈ (candidatesOf unreachableSounds).adaptive,
      ∃ parts, Url.split x.url.toList = .ok parts := by
    intro x hx
    have hsplit : ∀ x ∈ (candidatesOf unreachableSounds).adaptive,
        (Url.split x.url.toList).toOption.isSome = true := by decide +kernel
    rcases h : Url.split x.url.toList with f | parts
    · have hfault := hsplit x hx
      rw [h] at hfault
      simp [Except.toOption] at hfault
    · exact ⟨parts, rfl⟩
  have hfailed : (Selector.select { allowUnvalidated := false } unreachableAccess unreachableSounds
      { world := [] }).result = .error (.extractor (.noPlayableStream "v" [("presigned", 0),
        ("opus", 1), ("aac", 0), ("other", 0), ("probed", 1), ("manifests_excluded", 2)])) := by
    decide +kernel
  obtain ⟨hexactly, hcounts⟩ := Selector.exhausted_exactly { allowUnvalidated := false }
    unreachableAccess { world := [] } unreachableSounds hfields hc hurls
    (tame_refusing _ "https://h/" [])
  exact ⟨hfailed, (hexactly.mp ⟨_, _, hfailed⟩).2.1, (hcounts _ _ hfailed).2⟩

end Stream

end StreamResolver
