/-
  Where a selected URL comes from, and what can go wrong on the way.

  A selection is a playable candidate of the response with the URL it was delivered with, or with
  the one that deciphering made of that (`Origin`).  Neither what the network answers nor the state
  of the session can add anything to this: whatever the transform is and wherever it came from, a
  deciphered URL is put together from the parts of the delivered one.

  The contract of a selection (`select_keepsTo`) rests on `Grounds`: what getting the transform,
  cutting the URLs and probing may do.  Everything else that happens in a selection cannot fail,
  except that there may be no stream to select.
-/
import StreamResolver.Proofs.Cipher.MediaUrl
import StreamResolver.Proofs.Log.Contract
import StreamResolver.Proofs.Stream.Tiers

namespace StreamResolver

namespace Stream

open Network Cipher

variable {σ : Type}

/-- A URL that a candidate with the given URL may be tried at. -/
inductive Rewrites (sel : Selector) (url : String) : String → Prop where
  | delivered : Rewrites sel url url
  | deciphered {settings : Settings} {parts : Url} (t : Transform)
      (hcipher : sel.cipher = some settings) (hurl : Url.split url.toList = .ok parts)
      (hcarries : carriesCipher settings.param url = .ok true) :
      Rewrites sel url
        (withPairs parts ((Query.parse parts.query).map (decodePair settings.param.toList t)))

/-- The selections that there can be among some candidates. -/
inductive Origin (sel : Selector) (c : Response.Candidates) : Selection → Prop where
  | presigned {x : Candidate} (hx : x ∈ Candidate.rankAudio c.presigned) :
      Origin sel c (selectionOf x x.url .presigned false)
  | adaptive {x : Candidate} {url : String} {tier : Tier} (validated : Bool)
      (hx : x ∈ Candidate.rankAudio c.adaptive) (hurl : Rewrites sel x.url url)
      (htier : tier ≠ .presigned) : Origin sel c (selectionOf x url tier validated)

/-- What the parts of a selection keep to: `I` is kept, and `E` holds of the failures that are not
    announced and of the failure to find a stream. -/
structure Grounds (sel : Selector) (access : Access σ) (candidates : List Candidate)
    (I : Session σ → Prop) (E : Failure → Prop) : Prop where
  /-- The announced failures to get the transform are dealt with. -/
  transform : ∀ settings, sel.cipher = some settings →
    (Session.transform settings access.fetcher).KeepsTo I (fun _ => True)
      fun e => ∀ f, e = .fault f → E (.fault f)
  /-- A URL is only cut when it may have to be deciphered. -/
  link : ∀ x ∈ candidates, ∀ settings f, sel.cipher = some settings →
    Url.split x.url.toList = .error f → E (.fault f)
  probe : ∀ url, (Session.onWorld (sel.probe.reaches access.transport url)).KeepsTo I
    (fun _ => True) E
  shortage : ∀ videoId counts, E (.extractor (.noPlayableStream videoId counts))

/-- Nothing has to be known where nothing is asked for. -/
theorem grounds_trivial (sel : Selector) (access : Access σ) (candidates : List Candidate) :
    Grounds sel access candidates (fun _ => True) fun _ => True where
  transform _ _ := (Action.keepsTo_trivial _).weaken (fun _ h => h) fun _ _ _ _ => trivial
  link _ _ _ _ _ _ := trivial
  probe _ := Action.keepsTo_trivial _
  shortage _ _ := trivial

namespace Selector

variable {sel : Selector} {access : Access σ} {candidates : List Candidate}
  {I : Session σ → Prop} {E : Failure → Prop} {videoId : String}

/-- Deciphering a URL that carries a cipher is getting the transform and putting the URL together. -/
theorem decipher_keepsTo {settings : Settings} {f : Fetcher σ} {E' : Failure → Prop} {url : String}
    {parts : Url} (ht : (Session.transform settings f).KeepsTo I (fun _ => True) E')
    (hurl : Url.split url.toList = .ok parts)
    (hcarries : carriesCipher settings.param url = .ok true) :
    (Session.decipher settings f url).KeepsTo I (fun made => ∃ t, made =
      withPairs parts ((Query.parse parts.query).map (decodePair settings.param.toList t))) E' := by
  have heq := funext (Session.decipher_eq (f := f) hurl hcarries)
  rw [heq]
  exact ht.bind fun t _ => Action.keepsTo_pure ⟨t, rfl⟩

/-- The URL that is made ready is the delivered one or a deciphered one. -/
theorem decoded_keepsTo (hg : Grounds sel access candidates I E) (videoId : String) {x : Candidate}
    (hx : x ∈ candidates) :
    (sel.decoded access videoId x.url).KeepsTo I (fun p => Rewrites sel x.url p.1) E := by
  unfold decoded
  rcases hcipher : sel.cipher with _ | settings
  · exact Action.keepsTo_pure .delivered
  have hcarries : (Action.ofFault (carriesCipher settings.param x.url) :
      Action (Session σ) Bool).KeepsTo I
        (fun b => carriesCipher settings.param x.url = .ok b) E := by
    refine Action.keepsTo_ofFault (fun _ hb => hb) fun f hf => ?_
    refine hg.link x hx settings f hcipher ?_
    rcases hurl : Url.split x.url.toList with f' | parts
    · rw [carriesCipher, hurl] at hf
      cases hf
      rfl
    · rw [carriesCipher_eq hurl] at hf
      cases hf
  refine hcarries.bind fun b hb => ?_
  rcases b with _ | _
  · exact Action.keepsTo_pure .delivered
  rcases hurl : Url.split x.url.toList with f' | parts
  · rw [carriesCipher, hurl] at hb
    cases hb
  refine (decipher_keepsTo (hg.transform settings hcipher) hurl hb).attempt.bind fun r hr => ?_
  rcases r with (e | f) | made
  · exact (Action.keepsTo_emit _ _ _).bind fun _ _ => Action.keepsTo_pure .delivered
  · exact Action.keepsTo_fail (hr.2 (.fault f) rfl f rfl)
  · obtain ⟨t, rfl⟩ := hr.1 made rfl
    exact Action.keepsTo_pure (.deciphered t hcipher hurl hb)

/-- What trying candidates may come to. -/
def Tried.From (sel : Selector) (candidates : List Candidate) : Tried → Prop
  | .reached x url => x ∈ candidates ∧ Rewrites sel x.url url
  | .exhausted tried => ∀ e ∈ tried, e.1 ∈ candidates ∧ Rewrites sel e.1.url e.2

/-- **The loop** gives candidates with URLs that they may be tried at. -/
theorem tryEach_keepsTo (hg : Grounds sel access candidates I E) (videoId : String)
    {rest : List Candidate} (hrest : ∀ x ∈ rest, x ∈ candidates) (broken : Bool)
    {tried : List (Candidate × String)}
    (htried : ∀ e ∈ tried, e.1 ∈ candidates ∧ Rewrites sel e.1.url e.2) :
    (sel.tryEach access videoId broken tried rest).KeepsTo I (Tried.From sel candidates) E := by
  induction rest generalizing broken tried with
  | nil => exact Action.keepsTo_pure htried
  | cons x rest ih =>
    have hx := hrest x List.mem_cons_self
    have hready : (ready sel access videoId broken x).KeepsTo I
        (fun p => Rewrites sel x.url p.1) E := by
      unfold ready
      split
      · exact Action.keepsTo_pure .delivered
      · exact decoded_keepsTo hg videoId hx
    rw [tryEach_eq]
    refine hready.bind fun p hp => (hg.probe p.1).bind fun reached _ => ?_
    split
    · exact Action.keepsTo_pure ⟨hx, hp⟩
    · refine (Action.keepsTo_emit _ _ _).bind fun _ _ => ?_
      refine ih (fun y hy => hrest y (List.mem_cons_of_mem x hy)) p.2 fun e he => ?_
      rcases List.mem_append.mp he with he | he
      · exact htried e he
      · rw [List.mem_singleton.mp he]
        exact ⟨hx, hp⟩

theorem choose_keepsTo {Q : Selection → Prop} {x : Candidate} {url : String} {tier : Tier}
    {validated : Bool} (h : Q (selectionOf x url tier validated)) :
    (choose videoId x url tier validated : Action (Session σ) Selection).KeepsTo I Q E :=
  (Action.keepsTo_emit _ _ _).bind fun _ _ => Action.keepsTo_pure h

theorem giveUp_keepsTo {Q : Selection → Prop} {ranked : Ranked} {tried : Nat}
    (h : ∀ videoId counts, E (.extractor (.noPlayableStream videoId counts))) :
    (giveUp videoId ranked tried : Action (Session σ) Selection).KeepsTo I Q E :=
  (Action.keepsTo_emit _ _ _).bind fun _ _ => Action.keepsTo_fail (h _ _)

/-- Selecting among ranked candidates gives one of them. -/
theorem selectRanked_keepsTo {c : Response.Candidates}
    (hg : Grounds sel access (Candidate.rankAudio c.adaptive) I E) (videoId : String) :
    (sel.selectRanked access videoId (Ranked.ofCandidates c)).KeepsTo I (Origin sel c) E := by
  unfold selectRanked
  rcases hpresigned : (Ranked.ofCandidates c).presigned with _ | ⟨best, others⟩
  case cons =>
    have hbest : best ∈ Candidate.rankAudio c.presigned := by
      rw [show Candidate.rankAudio c.presigned = best :: others from hpresigned]
      exact List.mem_cons_self
    exact choose_keepsTo (.presigned hbest)
  have hloop : (sel.tryEach access videoId false [] (Candidate.rankAudio c.adaptive)).KeepsTo I
      (Tried.From sel (Candidate.rankAudio c.adaptive)) E :=
    tryEach_keepsTo hg videoId (fun _ hx => hx) false (by simp)
  refine hloop.bind fun r hr => ?_
  rcases r with ⟨x, url⟩ | _ | ⟨⟨x, url⟩, others⟩
  · exact choose_keepsTo (.adaptive true hr.1 hr.2 (by decide))
  · exact giveUp_keepsTo hg.shortage
  · obtain ⟨hx, hurl⟩ := hr (x, url) List.mem_cons_self
    dsimp only
    split
    · exact (Action.keepsTo_emit _ _ _).bind fun _ _ =>
        choose_keepsTo (.adaptive false hx hurl (by decide))
    · exact giveUp_keepsTo hg.shortage

/-- **The contract of a selection**: it gives a candidate of the response, at the URL it was delivered
    with or at one that deciphering made of that. -/
theorem select_keepsTo {video : Value}
    (hread : ∀ f, Response.candidates video = .error f → E (.fault f))
    (hg : ∀ c, Response.candidates video = .ok c →
      Grounds sel access (Candidate.rankAudio c.adaptive) I E) :
    (sel.select access video).KeepsTo I
      (fun r => ∃ c, Response.candidates video = .ok c ∧ Origin sel c r) E := by
  have hfields : ∀ f, video.fieldsOrFault = .error f → E (.fault f) := by
    intro f hf
    refine hread f ?_
    unfold Response.candidates
    rw [hf]
    rfl
  unfold select
  refine (Action.keepsTo_ofFault (Q := fun _ => True) (fun _ _ => trivial) hfields).bind fun _ _ => ?_
  refine (Action.keepsTo_ofFault (fun _ hc => hc) hread).bind fun c hc => ?_
  refine (Action.keepsTo_emit _ _ _).bind fun _ _ => ?_
  exact (selectRanked_keepsTo (hg c hc) _).weaken (fun _ h => ⟨c, hc, h⟩) fun _ h => h

end Selector

end Stream

end StreamResolver
