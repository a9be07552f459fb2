/-
  What a turn of any caller can do.

  A caller that does not read the script on its own account rests, leaves or waits (`CallerTurn`).
  Here is the whole picture (`CallerDoes`): callers that read the script are among them, and of a
  caller that leaves it is said with what.  It is refused or stopped, it has a reply that needs
  neither script nor transform, or its reply is made from what was kept, from the outcome of the
  current build, or from the transform that it was told.

  So whatever is said of all runs, with callers of every kind, is proved case by case here and not
  from the turns themselves.
-/
import StreamResolver.Proofs.Cipher.Turn

namespace StreamResolver.Cipher

/-- The outcome of a call that needs neither the script nor the transform. -/
def Call.plain? (settings : Settings) : Call → Option (Except Failure Reply)
  | .decipher url =>
    match Deciphering.start settings.param url with
    | .error e => some (.error (.fault e))
    | .ok (.inl deciphered) => some (.ok (.text deciphered))
    | .ok (.inr _) => none
  | .carriesCipher url =>
    some (((Cipher.carriesCipher settings.param url).map Reply.flag).mapError Failure.fault)
  | _ => none

/-- A call asks for the script, needs the transform, or has its outcome at once. -/
theorem Call.kinds (settings : Settings) (call : Call) :
    call = .script ∨ (∃ d, call.demand? settings = some d) ∨
      (call.demand? settings = none ∧ ∃ r, call.plain? settings = some r) := by
  cases call with
  | script => exact .inl rfl
  | transform => exact .inr (.inl ⟨_, rfl⟩)
  | decode value => exact .inr (.inl ⟨_, rfl⟩)
  | decipher url =>
    rcases h : Deciphering.start settings.param url with e | s | d
    · exact .inr (.inr ⟨by simp [demand?, h], _, by rw [plain?, h]⟩)
    · exact .inr (.inr ⟨by simp [demand?, h], _, by rw [plain?, h]⟩)
    · exact .inr (.inl ⟨.decipher d, by simp [demand?, h]⟩)
  | carriesCipher url => exact .inr (.inr ⟨rfl, _, rfl⟩)

namespace EventLoop

variable {σ : Type} {settings : Settings} {f : Fetcher σ}

/-- What a turn of caller `i` can make of the loop. -/
inductive CallerDoes (settings : Settings) (f : Fetcher σ) (i : Nat) (l : EventLoop σ)
    (c : Caller) : EventLoop σ → Prop where
  | rests (hs : (∃ b d, c.stage = .waiting b d) ∨ ∃ r, c.stage = .ended r) :
      CallerDoes settings f i l c l
  | stops (hc : c.cancelled = true) :
      CallerDoes settings f i l c (l.endCaller i (.error cancellation))
  | plain (r : Except Failure Reply) (hs : c.stage = .unstarted)
      (hr : c.call.plain? settings = some r) : CallerDoes settings f i l c (l.endCaller i r)
  /-- It was told a failure, or the current build has failed when it needs the transform. -/
  | fails (e : Failure) (h : (∃ d, c.stage = .told d (.error e)) ∨
        ∃ d, c.Needs settings d ∧ l.available? = some (.error e)) :
      CallerDoes settings f i l c (l.endCaller i (.error e))
  /-- An outcome is available when it needs the transform. -/
  | served (d : Demand) (t : Transform) (hd : c.Needs settings d)
      (h : l.available? = some (.ok t)) :
      CallerDoes settings f i l c
        (l.endCaller i (.ok (d.complete settings.param.toList t)))
  /-- It was told the transform, and that was all it needed. -/
  | last (d : Demand) (t : Transform) (r : Reply) (hs : c.stage = .told d (.ok t))
      (hd : d.advance settings.param.toList t = .inl r) :
      CallerDoes settings f i l c (l.endCaller i (.ok r))
  | waits (d : Demand) (hd : c.Needs settings d) (hc : c.cancelled = false)
      (h : l.available? = none) : CallerDoes settings f i l c (l.waitForBuild i d)
  | finds (script : Script) (hs : c.stage = .unstarted) (hcall : c.call = .script)
      (hk : l.session.cache.script = some script) :
      CallerDoes settings f i l c (l.endCaller i (.ok (.script script)))
  | asksForPage (events : List Event) (hs : c.stage = .unstarted) (hcall : c.call = .script)
      (hc : c.cancelled = false) (hk : l.session.cache.script = none) :
      CallerDoes settings f i l c
        (({ l with
            session := ⟨l.session.cache, f.request settings.watchUrl l.session.world⟩
            events }.setCaller i (.reading .page)).enqueue (.caller i))
  | asksForSource (page url : String) (w : σ) (events events' : List Event)
      (hs : c.stage = .reading .page) (hc : c.cancelled = false)
      (hpage : f.deliver settings.watchUrl l.session.world = ⟨.ok page, w, events'⟩)
      (hurl : (scriptUrl settings page).value = .ok url) :
      CallerDoes settings f i l c
        (({ l with session := ⟨l.session.cache, f.request url w⟩, events }.setCaller i
          (.reading (.source url))).enqueue (.caller i))
  | takesScript (url source : String) (w : σ) (events events' : List Event)
      (hs : c.stage = .reading (.source url)) (hc : c.cancelled = false)
      (hsource : f.deliver url l.session.world = ⟨.ok source, w, events'⟩) :
      CallerDoes settings f i l c
        ({ l with session := ⟨l.session.cache.withScript ⟨url, source⟩, w⟩, events }.endCaller i
          (.ok (.script ⟨url, source⟩)))
  /-- The text that it asked for is not there, or not what it should be. -/
  | refused (r : Reading) (e : Failure) (events : List Event) (hs : c.stage = .reading r)
      (hc : c.cancelled = false) :
      CallerDoes settings f i l c
        ({ l with
          session := ⟨l.session.cache, (f.deliver (r.url settings) l.session.world).state⟩
          events }.endCaller i (.error e))

theorem attend_does {i : Nat} {l : EventLoop σ} {c : Caller} {d : Demand}
    (hd : c.Needs settings d) (hc : c.cancelled = false) :
    CallerDoes settings f i l c (l.attend settings i d) := by
  unfold attend
  rcases h : l.available? with _ | e | t
  · exact .waits d hd hc h
  · exact .fails e (.inr ⟨d, hd, h⟩)
  · exact .served d t hd h

/-- A call that needs neither script nor transform ends on its first turn. -/
theorem startCall_plain {i : Nat} {l : EventLoop σ} {call : Call} {r : Except Failure Reply}
    (hr : call.plain? settings = some r) :
    l.startCall settings f i call = l.endCaller i r := by
  cases call with
  | decipher url =>
    rcases hstart : Deciphering.start settings.param url with e | s | d
    · simp only [Call.plain?, hstart, Option.some.injEq] at hr
      simp only [startCall, hstart, hr]
    · simp only [Call.plain?, hstart, Option.some.injEq] at hr
      simp only [startCall, hstart, hr]
    · simp [Call.plain?, hstart] at hr
  | carriesCipher url => rw [startCall, Option.some.inj hr]
  | _ => simp [Call.plain?] at hr

/-- A call that needs the transform looks for an outcome on its first turn. -/
theorem startCall_needy {i : Nat} {l : EventLoop σ} {call : Call} {d : Demand}
    (hd : call.demand? settings = some d) :
    l.startCall settings f i call = l.attend settings i d := by
  cases call with
  | transform => rw [startCall, Option.some.inj hd]
  | decode value => rw [startCall, Option.some.inj hd]
  | decipher url =>
    rcases hstart : Deciphering.start settings.param url with e | s | d'
    · simp [Call.demand?, hstart] at hd
    · simp [Call.demand?, hstart] at hd
    · simp only [Call.demand?, hstart, Option.some.injEq] at hd
      simp only [startCall, hstart, hd]
  | _ => simp [Call.demand?] at hd

theorem startCall_does {i : Nat} {l : EventLoop σ} {c : Caller} (hs : c.stage = .unstarted)
    (hc : c.cancelled = false) :
    CallerDoes settings f i l c (l.startCall settings f i c.call) := by
  rcases Call.kinds settings c.call with hcall | ⟨d, hd⟩ | ⟨-, r, hr⟩
  · rw [hcall, startCall]
    rcases hk : l.session.cache.script with _ | script
    · exact .asksForPage _ hs hcall hc hk
    · exact .finds script hs hcall hk
  · rw [startCall_needy hd]
    exact attend_does (.inl ⟨hs, hd⟩) hc
  · rw [startCall_plain hr]
    exact .plain r hs hr

/-- **A caller's turn**, whatever kind of caller it is. -/
theorem callerTurn_does (settings : Settings) (f : Fetcher σ) {i : Nat} {l : EventLoop σ}
    {c : Caller} (h : l.callers[i]? = some c) :
    CallerDoes settings f i l c (l.callerTurn settings f i) := by
  unfold callerTurn
  simp only [h]
  rcases hs : c.stage with _ | r | ⟨b, d⟩ | ⟨d, e | t⟩ | o <;> rcases hk : c.cancelled <;> simp only
  · exact startCall_does hs hk
  · exact .stops hk
  · -- it takes the text that it asked for
    cases r with
    | page =>
      rcases hd : f.deliver settings.watchUrl l.session.world with ⟨e | page, w, ev⟩
      · have hw : w = (f.deliver (Reading.page.url settings) l.session.world).state := by
          rw [Reading.url, hd]
        simp only [act, resume_page_refused hd, hw]
        exact .refused .page e _ hs hk
      · have hw : w = (f.deliver (Reading.page.url settings) l.session.world).state := by
          rw [Reading.url, hd]
        rcases hu : (scriptUrl settings page).result with ⟨e | url, ev'⟩
        · simp only [act, resume_page_nameless hd hu, hw]
          exact .refused .page e _ hs hk
        · obtain ⟨ev'', hr⟩ := resume_page_named hd hu
          simp only [act, hr]
          exact .asksForSource page url w _ ev hs hk hd (by rw [Reporting.value, hu])
    | source url =>
      rcases hd : f.deliver url l.session.world with ⟨e | source, w, ev⟩
      · have hw : w = (f.deliver ((Reading.source url).url settings) l.session.world).state := by
          rw [Reading.url, hd]
        simp only [act, resume_source_refused hd, hw]
        exact .refused (.source url) e _ hs hk
      · obtain ⟨ev', hr⟩ := resume_source_kept settings hd
        simp only [act, hr]
        exact .takesScript url source w _ ev hs hk hd
  · exact .stops hk
  · exact .rests (.inl ⟨b, d, hs⟩)
  · exact .rests (.inl ⟨b, d, hs⟩)
  · exact .fails e (.inl ⟨d, hs⟩)
  · exact .stops hk
  · rcases hd : d.advance settings.param.toList t with reply | d'
    · exact .last d t reply hs hd
    · exact attend_does (.inr ⟨d, t, hs, hd⟩) hk
  · exact .stops hk
  · exact .rests (.inr ⟨o, hs⟩)
  · exact .rests (.inr ⟨o, hs⟩)

end EventLoop

end StreamResolver.Cipher
