/-
  Which manifests are selected.

  A candidate knows whether its URL leads to a manifest, and one that does is never playable.  So a
  URL that is selected as it was delivered leads to no manifest, in any tier, and a manifest is only
  selected when deciphering made it.  What deciphering does to a URL is known, and with it what is
  left: the URL had characters that are dropped when it is cut, slashes were put in before its path,
  or the last value of its query ends like a manifest once it is decoded (`selected_manifest`).

  The last of these needs no odd URL: the decoded value stands at the end of the query as soon as the
  flag for the full rate stands before it (`selected_manifest_turned`).
-/
import StreamResolver.Proofs.Fallible
import StreamResolver.Proofs.Media.Manifest
import StreamResolver.Proofs.Stream.Origin

namespace StreamResolver

/-! ## What a candidate knows of its URL -/

namespace Response

open Fallible

theorem candidate?_isManifest {presigned : Bool} {format : Keyed Value} {x : Candidate}
    (h : candidate? presigned format = .ok (some x)) :
    x.isManifest = Link.isManifest x.url.toList := by
  unfold candidate? at h
  split at h
  · split at h
    · cases h
    · obtain ⟨rate, -, h⟩ := exists_of_bind_eq_ok h
      cases h
      rfl
  · cases h

theorem candidatesOf_isManifest {presigned : Bool} {formats : Option Value} {cs : List Candidate}
    (h : candidatesOf presigned formats = .ok cs) :
    ∀ x ∈ cs, x.isManifest = Link.isManifest x.url.toList := by
  obtain ⟨entries, -, h⟩ := exists_of_bind_eq_ok h
  obtain ⟨read, hread, h⟩ := exists_of_bind_eq_ok h
  cases h
  intro x hx
  obtain ⟨y, hy, hyx⟩ := List.mem_filterMap.mp hx
  obtain ⟨format, -, hformat⟩ := mem_of_mapM_eq_ok hread y hy
  rw [show y = some x from hyx] at hformat
  exact candidate?_isManifest hformat

/-- **A candidate of a response** is marked as a manifest exactly if its URL leads to one. -/
theorem candidates_isManifest {video : Value} {c : Candidates} (h : candidates video = .ok c) :
    ∀ x ∈ c.presigned ++ c.adaptive, x.isManifest = Link.isManifest x.url.toList := by
  obtain ⟨fields, -, h⟩ := exists_of_bind_eq_ok h
  obtain ⟨presigned, hpresigned, h⟩ := exists_of_bind_eq_ok h
  obtain ⟨adaptive, hadaptive, h⟩ := exists_of_bind_eq_ok h
  cases h
  intro x hx
  rcases List.mem_append.mp hx with hx | hx
  · exact candidatesOf_isManifest hpresigned x hx
  · exact candidatesOf_isManifest hadaptive x hx

end Response

namespace Stream

open Network Cipher

variable {σ : Type}

/-- A playable candidate of a response leads to no manifest. -/
theorem not_manifest_of_rankAudio {video : Value} {c : Response.Candidates}
    (hc : Response.candidates video = .ok c) {cs : List Candidate}
    (hcs : ∀ x ∈ cs, x ∈ c.presigned ++ c.adaptive) {x : Candidate}
    (hx : x ∈ Candidate.rankAudio cs) : Link.isManifest x.url.toList = false := by
  obtain ⟨hmem, hplayable⟩ := Candidate.mem_rankAudio.mp hx
  rw [← Response.candidates_isManifest hc x (hcs x hmem)]
  rw [Candidate.isPlayable, Bool.and_eq_true, Bool.not_eq_true'] at hplayable
  exact hplayable.2

/-- A URL that deciphering made, and how it came to lead to a manifest although the delivered one does
    not. -/
structure MadeManifest (sel : Selector) (url made : String) : Prop where
  not_delivered : Link.isManifest url.toList = false
  deciphered : ∃ settings parts t pairs, sel.cipher = some settings ∧
    carriesCipher settings.param url = .ok true ∧ Url.split url.toList = .ok parts ∧
    pairs = (Query.parse parts.query).map (decodePair settings.param.toList t) ∧
    made = withPairs parts pairs ∧
    -- characters were dropped, slashes were put in, or the last value ends like a manifest
    (Link.isManifest (Url.clean url.toList) = true ∨ parts.SlashesPutIn ∨
      EndsLikeManifest parts pairs)

theorem query_ne_nil_of_carriesCipher {param url : String} {parts : Url}
    (hurl : Url.split url.toList = .ok parts) (hcarries : carriesCipher param url = .ok true) :
    parts.query ≠ [] := by
  intro hnil
  rw [carriesCipher_eq hurl, hnil] at hcarries
  cases hcarries

theorem madeManifest_of_rewrites {sel : Selector} {url made : String}
    (hnot : Link.isManifest url.toList = false) (h : Rewrites sel url made)
    (hm : Link.isManifest made.toList = true) : MadeManifest sel url made := by
  cases h with
  | delivered =>
    rw [hnot] at hm
    cases hm
  | @deciphered settings parts t hcipher hurl hcarries =>
    exact ⟨hnot, settings, parts, t, _, hcipher, hcarries, hurl, rfl, rfl,
      manifest_of_withPairs hurl (query_ne_nil_of_carriesCipher hurl hcarries) hm⟩

/-- **Manifests are left out**, unless deciphering makes one: whatever the response, the network, the
    session and its transform are. -/
theorem selected_manifest (sel : Selector) (access : Access σ) (s : Session σ) (video : Value)
    (r : Selection) (h : (sel.select access video s).result = .ok r) :
    Link.isManifest r.url.toList = false ∨
      r.tier ≠ .presigned ∧ ∃ c x, Response.candidates video = .ok c ∧
        x ∈ Candidate.rankAudio c.adaptive ∧ MadeManifest sel x.url r.url := by
  have hcontract : (sel.select access video).KeepsTo (fun _ => True)
      (fun r => ∃ c, Response.candidates video = .ok c ∧ Origin sel c r) fun _ => True :=
    Selector.select_keepsTo (fun _ _ => trivial)
      fun c _ => grounds_trivial sel access (Candidate.rankAudio c.adaptive)
  obtain ⟨-, horigin, -⟩ := hcontract s trivial
  obtain ⟨c, hc, horigin⟩ := horigin r h
  cases horigin with
  | presigned hx =>
    exact .inl (not_manifest_of_rankAudio hc (fun _ h => List.mem_append_left _ h) hx)
  | @adaptive x url tier validated hx hurl htier =>
    rcases hm : Link.isManifest url.toList with _ | _
    · exact .inl hm
    · have hnot := not_manifest_of_rankAudio hc (fun _ h => List.mem_append_right _ h) hx
      exact .inr ⟨htier, c, x, hc, hx, madeManifest_of_rewrites hnot hurl hm⟩

/-- A video with one ciphered sound whose value stands at the end and is an ending turned round. -/
def turnedEnding : Value :=
  .object [("videoId", .str "v"), ("adaptiveFormats", .list [
    .object [("url", .str "https://h/a?ratebypass=yes&n=dpm."),
      ("type", .str "audio/webm; codecs=opus"), ("bitrate", .int 1)]])]

/-- A session that is ready to turn values round. -/
def turningSession : Session (List String) :=
  { cache := { transform := some ⟨[("AB", .reverse)], [⟨"AB", 45⟩]⟩ }, world := [] }

/-- The network on which the deciphered URL is reachable, and nothing can be read. -/
def turnedAccess : Access (List String) :=
  ⟨oneReachable "https://h/a?ratebypass=yes&n=.mpd", refusing⟩

/-- The manifest is selected: deciphering made it of a URL that leads to none. -/
theorem selected_manifest_turned :
    ∃ r, (Selector.select {} turnedAccess turnedEnding turningSession).result = .ok r ∧
      Link.isManifest r.url.toList = true ∧
      r.tier ≠ .presigned ∧ ∃ c x, Response.candidates turnedEnding = .ok c ∧
        x ∈ Candidate.rankAudio c.adaptive ∧ MadeManifest {} x.url r.url := by
  have hrun : (Selector.select {} turnedAccess turnedEnding turningSession).result =
      .ok ⟨"https://h/a?ratebypass=yes&n=.mpd", .adaptive, .opus, 1, "", true⟩ := by
    decide +kernel
  have hmanifest : Link.isManifest "https://h/a?ratebypass=yes&n=.mpd".toList = true := by
    decide +kernel
  refine ⟨_, hrun, hmanifest, ?_⟩
  refine (selected_manifest {} turnedAccess turningSession turnedEnding _ hrun).resolve_left ?_
  rw [hmanifest]
  decide

end Stream

end StreamResolver
