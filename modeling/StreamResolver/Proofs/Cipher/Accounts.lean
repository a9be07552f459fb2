/-
  What the notes account for after a reset.

  A loop is reset, and from then on notes are taken (`Provenance`).  The invariant (`Renewed`) ties
  what is kept, what builds make and what callers are told to these notes:

    * a build that was there before and had not ended can only be cancelled;
    * any other build reads what the notes say, and its outcome is made from it;
    * a caller that had no answer at the reset (`Unanswered`) waits for the one or the other, so it
      is refused or gets what was made since.

  It rests on the builds from before being out of play (`Dropped`): the current build, which callers
  join and whose outcome they take, is one of after the reset.
-/
import StreamResolver.Proofs.Cipher.CallerWise
import StreamResolver.Proofs.Cipher.Dropped
import StreamResolver.Proofs.Cipher.Provenance

namespace StreamResolver.Cipher

variable {σ : Type} {settings : Settings} {f : Fetcher σ}

/-! ## Callers and builds -/

/-- Whether a caller has neither an answer nor an outcome to make it from. -/
def Caller.Unanswered (l : EventLoop σ) (c : Caller) : Prop :=
  match c.stage with
  | .unstarted | .reading _ => True
  | .waiting b _ => l.Pending b
  | .told .. | .ended _ => False

/-- Whether caller `i` had no answer yet; one that had not come had none. -/
def EventLoop.Unanswered (l : EventLoop σ) (i : Nat) : Prop :=
  ∀ c, l.callers[i]? = some c → c.Unanswered l

/-- The demand is what may be left of a call after transforms that were made. -/
def Call.Leaves (settings : Settings) (ns : List Note) (call : Call) (d : Demand) : Prop :=
  ∃ d₀, call.demand? settings = some d₀ ∧
    d₀.Leaves settings.param.toList (Transform.MadeIn settings ns) d

/-- The notes account for a build: for what it reads, and for its outcome. -/
structure SharedBuild.Accounted (settings : Settings) (ns : List Note) (b : SharedBuild) : Prop where
  reading : ∀ r, b.stage = .reading r → r.TracedIn settings ns
  ended : ∀ o, b.outcome? = some o → OutcomeIn settings ns o

/-- The notes account for caller `i`, where `base` is the loop that was reset.  Nothing is said of a
    caller that had its answer by then, except that it does not read. -/
structure Caller.Accounted (settings : Settings) (ns : List Note) (base : EventLoop σ) (i : Nat)
    (c : Caller) : Prop where
  reading : ∀ r, c.stage = .reading r →
    c.cancelled = true ∨ (c.call = .script ∧ r.TracedIn settings ns)
  waiting : base.Unanswered i → ∀ b d, c.stage = .waiting b d →
    base.Pending b ∨ (base.builds.length ≤ b ∧ c.call.Leaves settings ns d)
  told : base.Unanswered i → ∀ d o, c.stage = .told d o →
    o = .error EventLoop.cancellation ∨ (OutcomeIn settings ns o ∧ c.call.Leaves settings ns d)
  ended : base.Unanswered i → ∀ r, c.stage = .ended r → ReplyIn settings ns c.call r

section Accounted

variable {ns ns' : List Note} {base : EventLoop σ} {i : Nat} {c : Caller}

theorem Call.Leaves.mono {call : Call} {d : Demand} (hns : ns.Sublist ns')
    (h : call.Leaves settings ns d) : call.Leaves settings ns' d := by
  obtain ⟨d₀, hd₀, hleaves⟩ := h
  exact ⟨d₀, hd₀, hleaves.mono fun _ => Transform.MadeIn.mono hns⟩

/-- A call that is served with a transform gets what was decoded by transforms that were made. -/
theorem Call.Leaves.complete {call : Call} {d : Demand} (h : call.Leaves settings ns d)
    {t : Transform} (ht : t.MadeIn settings ns) :
    ReplyIn settings ns call (.ok (d.complete settings.param.toList t)) := by
  obtain ⟨d₀, hd₀, hleaves⟩ := h
  exact .decoded hd₀ (hleaves.complete ht)

theorem SharedBuild.Accounted.mono {b : SharedBuild} (hns : ns.Sublist ns')
    (h : b.Accounted settings ns) : b.Accounted settings ns' where
  reading r hs := (h.reading r hs).mono hns
  ended o ho := (h.ended o ho).mono hns

namespace Caller.Accounted

theorem mono (hns : ns.Sublist ns') (h : c.Accounted settings ns base i) :
    c.Accounted settings ns' base i where
  reading r hs := (h.reading r hs).imp_right fun ⟨hcall, hr⟩ => ⟨hcall, hr.mono hns⟩
  waiting hi b d hs := (h.waiting hi b d hs).imp_right fun ⟨hb, hd⟩ => ⟨hb, hd.mono hns⟩
  told hi d o hs := (h.told hi d o hs).imp_right fun ⟨ho, hd⟩ => ⟨ho.mono hns, hd.mono hns⟩
  ended hi r hs := (h.ended hi r hs).mono hns

theorem new (settings : Settings) (ns : List Note) (base : EventLoop σ) (i : Nat) (call : Call) :
    ({ call } : Caller).Accounted settings ns base i :=
  ⟨by simp, by simp, by simp, by simp⟩

theorem marked (h : c.Accounted settings ns base i) :
    ({ c with cancelled := true } : Caller).Accounted settings ns base i :=
  ⟨fun _ _ => .inl rfl, h.waiting, h.told, h.ended⟩

theorem reads {r : Reading} (hcall : c.call = .script) (hr : r.TracedIn settings ns) :
    ({ c with stage := .reading r } : Caller).Accounted settings ns base i :=
  ⟨fun r' hr' => .inr ⟨hcall, by cases hr'; exact hr⟩, by simp, by simp, by simp⟩

theorem waits {b : Nat} {d : Demand}
    (h : base.Unanswered i → base.builds.length ≤ b ∧ c.call.Leaves settings ns d) :
    ({ c with stage := .waiting b d } : Caller).Accounted settings ns base i :=
  ⟨by simp, fun hi b' d' hs => by cases hs; exact .inr (h hi), by simp, by simp⟩

theorem hears {d : Demand} {o : Except Failure Transform}
    (h : base.Unanswered i →
      o = .error EventLoop.cancellation ∨ (OutcomeIn settings ns o ∧ c.call.Leaves settings ns d)) :
    ({ c with stage := .told d o } : Caller).Accounted settings ns base i :=
  ⟨by simp, by simp, fun hi d' o' hs => by cases hs; exact h hi, by simp⟩

theorem ends {r : Except Failure Reply}
    (h : base.Unanswered i → ReplyIn settings ns c.call r) :
    ({ c with stage := .ended r } : Caller).Accounted settings ns base i :=
  ⟨by simp, by simp, by simp, fun hi r' hs => by cases hs; exact h hi⟩

/-- What a caller needs now is what is left of its call. -/
theorem leaves (h : c.Accounted settings ns base i) (hi : base.Unanswered i) {d : Demand}
    (hd : c.Needs settings d) : c.call.Leaves settings ns d := by
  rcases hd with ⟨-, hdemand⟩ | ⟨d', t, hs, hadvance⟩
  · exact ⟨d, hdemand, .all⟩
  · rcases h.told hi d' _ hs with hfalse | ⟨ht, d₀, hd₀, hleaves⟩
    · simp at hfalse
    · exact ⟨d₀, hd₀, hleaves.less ht hadvance⟩

end Caller.Accounted

end Accounted

namespace EventLoop

/-! ## The invariant -/

/-- What the notes that are taken since the reset of `base` account for. -/
structure Renewed (settings : Settings) (base : EventLoop σ) (l : EventLoop (Noted σ)) : Prop where
  begins : BeginsWithPage settings l.session.world.notes
  cache : l.session.cache.MadeIn settings l.session.world.notes
  builds : ∀ (b : Nat) (build : SharedBuild), base.builds.length ≤ b → l.builds[b]? = some build →
    build.Accounted settings l.session.world.notes
  /-- What had not ended at the reset can only be cancelled. -/
  refused : ∀ b o, base.Pending b → l.outcomeOf? b = some o → o = .error cancellation
  callers : AllCallers (Caller.Accounted settings l.session.world.notes base) l

namespace Renewed

variable {base : EventLoop σ} {l : EventLoop (Noted σ)}

/-! ### Small changes -/

/-- Something is written, and what is kept then is accounted for. -/
theorem writes (h : Renewed settings base l) (new : List Note) {w : Noted σ} {c : Cache}
    (events : List Event) (hw : w.notes = l.session.world.notes ++ new)
    (hnew : settings.watchUrl ∈ asked l.session.world.notes ∨ BeginsWithPage settings new)
    (hc : c.MadeIn settings w.notes) :
    Renewed settings base { l with session := ⟨c, w⟩, events } := by
  have hns : l.session.world.notes.Sublist w.notes := by
    rw [hw]
    exact List.sublist_append_left _ new
  refine ⟨?_, hc, fun b build hb hbuild => (h.builds b build hb hbuild).mono hns, h.refused,
    fun i c hc => (h.callers i c hc).mono hns⟩
  show BeginsWithPage settings w.notes
  rw [hw]
  exact h.begins.append hnew

/-- The watch page is asked for. -/
theorem asksForPage (h : Renewed settings base l) (f : Fetcher σ) (events : List Event) :
    Renewed settings base { l with
      session := ⟨l.session.cache, f.noting.request settings.watchUrl l.session.world⟩
      events } :=
  h.writes [.asked settings.watchUrl] events rfl (.inr (by simp [BeginsWithPage, asked]))
    (h.cache.mono (List.sublist_append_left _ _))

/-- The watch page comes, and the script that it names is asked for. -/
theorem asksForSource (h : Renewed settings base l) (events : List Event) {page url : String}
    {w : Noted σ} {events' : List Event}
    (hr : Reading.page.TracedIn settings l.session.world.notes)
    (hpage : f.noting.deliver settings.watchUrl l.session.world = ⟨.ok page, w, events'⟩)
    (hurl : (scriptUrl settings page).value = .ok url) :
    Renewed settings base { l with
      session := ⟨l.session.cache, f.noting.request url w⟩
      events } ∧
      (Reading.source url).TracedIn settings (f.noting.request url w).notes := by
  have hnotes : (f.noting.request url w).notes =
      l.session.world.notes ++ [.got settings.watchUrl (.ok page), .asked url] := by
    show w.notes ++ [.asked url] = _
    rw [Fetcher.noting_deliver hpage, List.append_assoc]
    rfl
  constructor
  · refine h.writes _ events hnotes (.inl hr.page_asked) (h.cache.mono ?_)
    rw [hnotes]
    exact List.sublist_append_left _ _
  · rw [hnotes]
    exact hr.source hurl

/-- A text comes, or it does not. -/
theorem reads (h : Renewed settings base l) (f : Fetcher σ) (events : List Event) {r : Reading}
    (hr : r.TracedIn settings l.session.world.notes) {c : Cache}
    (hc : c.MadeIn settings
      (f.noting.deliver (r.url settings) l.session.world).state.notes) :
    Renewed settings base { l with
      session := ⟨c, (f.noting.deliver (r.url settings) l.session.world).state⟩
      events } :=
  h.writes _ events rfl (.inl hr.page_asked) hc

/-- The script comes. -/
theorem readIn_of_deliver {url source : String} {w : Noted σ}
    (hr : (Reading.source url).TracedIn settings w.notes)
    (hsource : (f.noting.deliver url w).result = .ok source) :
    Script.ReadIn settings (f.noting.deliver url w).state.notes ⟨url, source⟩ := by
  rw [Fetcher.noting_notes, hsource]
  exact hr.script source

theorem clears (h : Renewed settings base l) (events : List Event) :
    Renewed settings base { l with session := l.session.clear, events } :=
  ⟨h.begins, Cache.madeIn_empty settings _, h.builds, h.refused, h.callers⟩

theorem queued (h : Renewed settings base l) (queue : List Turn) :
    Renewed settings base { l with queue } :=
  ⟨h.begins, h.cache, h.builds, h.refused, h.callers⟩

theorem modifyCaller (h : Renewed settings base l) {i : Nat} {g : Caller → Caller}
    (hg : ∀ c, l.callers[i]? = some c → c.Accounted settings l.session.world.notes base i →
      (g c).Accounted settings l.session.world.notes base i) :
    Renewed settings base { l with callers := l.callers.modify i g } :=
  ⟨h.begins, h.cache, h.builds, h.refused, h.callers.modify hg⟩

/-- A caller goes on, and the notes account for it as before. -/
theorem setCaller (h : Renewed settings base l) {i : Nat} {c : Caller} {stage : CallerStage}
    (hc : l.callers[i]? = some c)
    (hg : c.Accounted settings l.session.world.notes base i →
      ({ c with stage } : Caller).Accounted settings l.session.world.notes base i) :
    Renewed settings base (l.setCaller i stage) := by
  refine h.modifyCaller fun c' hc' => ?_
  obtain rfl : c = c' := Option.some.inj (hc.symm.trans hc')
  exact hg

theorem endCaller (h : Renewed settings base l) {i : Nat} {c : Caller}
    {r : Except Failure Reply} (hc : l.callers[i]? = some c)
    (hr : base.Unanswered i → ReplyIn settings l.session.world.notes c.call r) :
    Renewed settings base (l.endCaller i r) :=
  h.setCaller hc fun _ => .ends hr

theorem readCaller (h : Renewed settings base l) {i : Nat} {c : Caller} {r : Reading}
    (hc : l.callers[i]? = some c) (hcall : c.call = .script)
    (hr : r.TracedIn settings l.session.world.notes) :
    Renewed settings base ((l.setCaller i (.reading r)).enqueue (.caller i)) :=
  queued (h.setCaller hc fun _ => .reads hcall hr) _

/-- A build changes, and the notes account for it as before; if it is one from before the reset, it
    ends as cancelled. -/
theorem modifyBuild (h : Renewed settings base l) {i : Nat} {g : SharedBuild → SharedBuild}
    (hnew : ∀ b : SharedBuild, b.Accounted settings l.session.world.notes →
      (g b).Accounted settings l.session.world.notes)
    (hold : ∀ (b : SharedBuild) o, base.Pending i → (g b).outcome? = some o →
      b.outcome? = some o ∨ o = .error cancellation) :
    Renewed settings base { l with builds := l.builds.modify i g } := by
  refine ⟨h.begins, h.cache, ?_, ?_, h.callers⟩
  · intro j build hj hbuild
    simp only [List.getElem?_modify] at hbuild
    obtain ⟨b, hb, rfl⟩ := Option.map_eq_some_iff.mp hbuild
    split
    · next hij =>
      subst hij
      exact hnew b (h.builds i b hj hb)
    · exact h.builds j b hj hb
  · intro j o hj ho
    obtain ⟨b', hb', ho'⟩ := Option.bind_eq_some_iff.mp ho
    simp only [List.getElem?_modify] at hb'
    obtain ⟨b, hb, rfl⟩ := Option.map_eq_some_iff.mp hb'
    have hrefused : b.outcome? = some o → o = .error cancellation := fun hbo =>
      h.refused j o hj (Option.bind_eq_some_iff.mpr ⟨b, hb, hbo⟩)
    split at ho'
    · next hij =>
      subst hij
      exact (hold b o hj ho').elim hrefused id
    · exact hrefused ho'

theorem readBuild (h : Renewed settings base l) {i : Nat} {r : Reading}
    (hr : r.TracedIn settings l.session.world.notes) :
    Renewed settings base ((l.setBuild i (.reading r)).enqueue (.build i)) := by
  refine queued (h.modifyBuild (fun b _ => ⟨?_, by simp [SharedBuild.outcome?]⟩) ?_) _
  · intro r' hr'
    cases hr'
    exact hr
  · intro b o _ ho
    simp [SharedBuild.outcome?] at ho

theorem endBuild (h : Renewed settings base l) {i : Nat} {o : Except Failure Transform}
    (ho : OutcomeIn settings l.session.world.notes o)
    (hold : base.Pending i → o = .error cancellation) :
    Renewed settings base (l.endBuild i o) := by
  refine queued (h.modifyBuild (fun b _ => ⟨by simp, ?_⟩) ?_) _
  · intro o' ho'
    obtain rfl : o = o' := by simpa [SharedBuild.outcome?] using ho'
    exact ho
  · intro b o' hi ho'
    obtain rfl : o = o' := by simpa [SharedBuild.outcome?] using ho'
    exact .inr (hold hi)

/-- A new build has neither read nor made anything. -/
theorem newBuild (h : Renewed settings base l) (hle : base.builds.length ≤ l.builds.length)
    (waiters : List Nat) (current : Option Nat) :
    Renewed settings base
      { l with builds := l.builds ++ [({ waiters } : SharedBuild)], current } := by
  refine ⟨h.begins, h.cache, ?_, ?_, h.callers⟩
  · intro b build hb hbuild
    rcases getElem?_concat_cases hbuild with hold | ⟨-, rfl⟩
    · exact h.builds b build hb hold
    · exact ⟨by simp, by simp [SharedBuild.outcome?]⟩
  · intro b o hb ho
    have hlt : b < l.builds.length := by
      obtain ⟨build, hbuild, -⟩ := hb
      exact Nat.lt_of_lt_of_le (List.getElem?_eq_some_iff.mp hbuild).1 hle
    rw [outcomeOf?, List.getElem?_append_left hlt] at ho
    exact h.refused b o hb ho

/-- A caller needs the transform while no outcome is there: it waits for a build of after the
    reset, since the builds from before are not current. -/
theorem waitForBuild (h : Renewed settings base l) (hd : Dropped base.builds.length l) {i : Nat}
    {c : Caller} {d : Demand} (hc : l.callers[i]? = some c) (hneeds : c.Needs settings d) :
    Renewed settings base (l.waitForBuild i d) := by
  have hwaits : ∀ b, base.builds.length ≤ b →
      c.Accounted settings l.session.world.notes base i →
      ({ c with stage := .waiting b d } : Caller).Accounted settings l.session.world.notes
        base i :=
    fun b hb hacc => .waits fun hi => ⟨hb, hacc.leaves hi hneeds⟩
  rcases hcur : l.current with _ | n
  · rw [waitForBuild_fresh hcur]
    exact ((h.newBuild hd.le [i] (some l.builds.length)).queued _).setCaller hc (hwaits _ hd.le)
  · rw [waitForBuild_current hcur]
    have hjoined : Renewed settings base { l with builds := l.builds.modify n fun build =>
        { build with waiters := build.waiters ++ [i] } } :=
      h.modifyBuild (fun b hb => ⟨hb.reading, hb.ended⟩) fun b o _ ho => .inl ho
    exact hjoined.setCaller hc (hwaits n (hd.current n hcur))

/-! ### Turns -/

/-- An outcome that is available is the outcome of a build of after the reset. -/
theorem available (h : Renewed settings base l) (hd : Dropped base.builds.length l)
    {o : Except Failure Transform} (ho : l.available? = some o) :
    OutcomeIn settings l.session.world.notes o := by
  unfold available? at ho
  rcases ht : l.session.cache.transform with _ | t
  · rw [ht] at ho
    obtain ⟨build, hbuild, hended⟩ := Option.bind_eq_some_iff.mp ho
    obtain ⟨b, hcur, hb⟩ := Option.bind_eq_some_iff.mp hbuild
    exact (h.builds b build (hd.current b hcur) hb).ended o hended
  · rw [ht, Option.some.injEq] at ho
    subst ho
    exact h.cache.transform ht

theorem callerTurn (h : Renewed settings base l) (hd : Dropped base.builds.length l) (i : Nat) :
    Renewed settings base (l.callerTurn settings f.noting i) := by
  rcases hc : l.callers[i]? with _ | c
  · rwa [callerTurn_none hc]
  have hacc := h.callers i c hc
  have hread : ∀ r, c.stage = .reading r → c.cancelled = false →
      c.call = .script ∧ r.TracedIn settings l.session.world.notes := by
    intro r hs hlive
    rcases hacc.reading r hs with hcancelled | hr
    · simp [hlive] at hcancelled
    · exact hr
  have hturn := callerTurn_does settings f.noting hc
  generalize l.callerTurn settings f.noting i = l' at hturn
  -- its reply is made from what is kept, from the current build or from what it was told
  cases hturn with
  | rests _ => exact h
  | stops _ => exact h.endCaller hc fun _ => .cancelled
  | plain r _ hr => exact h.endCaller hc fun _ => .plain hr
  | fails e he =>
    -- the failure is one that it was told, or one that is available
    refine h.endCaller hc fun hi => ?_
    have hcause : e = cancellation ∨ settings.watchUrl ∈ asked l.session.world.notes := by
      rcases he with ⟨d, hs⟩ | ⟨d, -, havailable⟩
      · rcases hacc.told hi d _ hs with hcancelled | ⟨ho, -⟩
        · exact .inl (Except.error.inj hcancelled)
        · exact ho
      · exact h.available hd havailable
    rcases hcause with rfl | hasked
    · exact .cancelled
    · exact .fails hasked
  | served d t hneeds havailable =>
    exact h.endCaller hc fun hi =>
      (hacc.leaves hi hneeds).complete (h.available hd havailable)
  | last d t r hs hadvance =>
    refine h.endCaller hc fun hi => ?_
    rcases hacc.told hi d _ hs with hfalse | ⟨ht, d₀, hd₀, hleaves⟩
    · simp at hfalse
    · exact .decoded hd₀ ⟨d, t, hleaves, ht, hadvance⟩
  | waits d hneeds _ _ => exact h.waitForBuild hd hc hneeds
  | finds script _ hcall hk =>
    exact h.endCaller hc fun _ => .script hcall (h.cache.script script hk)
  | asksForPage events _ hcall _ _ =>
    exact (h.asksForPage f events).readCaller hc hcall (tracedIn_page settings _)
  | asksForSource page url w events events' hs hlive hpage hurl =>
    obtain ⟨hcall, hr⟩ := hread _ hs hlive
    obtain ⟨hasks, hsource⟩ := h.asksForSource events hr hpage hurl
    exact hasks.readCaller hc hcall hsource
  | takesScript url source w events events' hs hlive hsource =>
    obtain ⟨hcall, hr⟩ := hread _ hs hlive
    obtain rfl : (f.noting.deliver url l.session.world).state = w := by rw [hsource]
    have hscript := readIn_of_deliver hr (by rw [hsource])
    have hkept := (h.cache.mono (List.sublist_append_left _ _)).withScript hscript
    exact (h.reads f events hr hkept).endCaller hc fun _ => .script hcall hscript
  | refused r e events hs hlive =>
    obtain ⟨-, hr⟩ := hread _ hs hlive
    have hreads := h.reads f events hr (h.cache.mono (List.sublist_append_left _ _))
    exact hreads.endCaller hc fun _ =>
      .fails (asked_mono (List.sublist_append_left _ _) hr.page_asked)

/-- A build from before the reset can only be cancelled; what any other one reads and makes is
    accounted for. -/
theorem buildTurn (h : Renewed settings base l) (hd : Dropped base.builds.length l) (i : Nat) :
    Renewed settings base (l.buildTurn settings f.noting i) := by
  refine buildTurn_rule (fun _ => h) fun b l' hb ho hturn => ?_
  -- one that is not cancelled is none of those that the reset dropped
  have hlate : b.cancelled = false →
      base.builds.length ≤ i ∧ b.Accounted settings l.session.world.notes := by
    intro hlive
    have hge : base.builds.length ≤ i := by
      refine Nat.le_of_not_lt fun hlt => ?_
      simp [hd.cancelled i b hlt hb ho] at hlive
    exact ⟨hge, h.builds i b hge hb⟩
  have hearly : base.builds.length ≤ i → ¬ base.Pending i := by
    rintro hge ⟨b', hb', -⟩
    exact absurd (List.getElem?_eq_some_iff.mp hb').1 (Nat.not_lt.mpr hge)
  cases hturn with
  | neverStarts _ _ => exact h.endBuild (.inl rfl) fun _ => rfl
  | givesUp _ events _ _ => exact (h.clears events).endBuild (.inl rfl) fun _ => rfl
  | asksForPage events _ _ _ =>
    exact (h.asksForPage f events).readBuild (tracedIn_page settings _)
  | asksForSource page url w events events' hs hlive hpage hurl =>
    obtain ⟨-, hacc⟩ := hlate hlive
    obtain ⟨hasks, hsource⟩ := h.asksForSource events (hacc.reading _ hs) hpage hurl
    exact hasks.readBuild hsource
  | succeeds script build w events hlive hscript hbuild =>
    obtain ⟨hge, hacc⟩ := hlate hlive
    rcases hscript with ⟨-, hk, rfl⟩ | ⟨hs, hsource, rfl⟩
    · -- the script is one that is kept
      have hread := h.cache.script script hk
      have hkept := h.writes [] events (List.append_nil _).symm (.inl hread.page_asked)
        (Cache.madeIn_build hread hbuild)
      exact hkept.endBuild ⟨build, ⟨script, hread, hbuild⟩, rfl⟩ fun hi => absurd hi (hearly hge)
    · have hread : script.ReadIn settings _ := readIn_of_deliver (hacc.reading _ hs) hsource
      have hkept := h.reads f events (hacc.reading _ hs) (Cache.madeIn_build hread hbuild)
      exact hkept.endBuild ⟨build, ⟨script, hread, hbuild⟩, rfl⟩ fun hi => absurd hi (hearly hge)
  | fails e w events hlive hw =>
    obtain ⟨hge, hacc⟩ := hlate hlive
    rcases hw with ⟨-, ⟨script, hk⟩, rfl⟩ | ⟨r, hs, rfl⟩
    · -- the script that is kept gives no transform
      have hasked := (h.cache.script script hk).page_asked
      have hcleared := h.writes [] events (List.append_nil _).symm (.inl hasked)
        (Cache.madeIn_empty settings _)
      exact hcleared.endBuild (.inr hasked) fun hi => absurd hi (hearly hge)
    · have hr := hacc.reading r hs
      have hcleared := h.reads f events hr (Cache.madeIn_empty settings _)
      exact hcleared.endBuild (.inr (asked_mono (List.sublist_append_left _ _) hr.page_asked))
        fun hi => absurd hi (hearly hge)

/-- Whoever is told an outcome is told that of a build of after the reset, or that it is
    cancelled. -/
theorem settleTurn (h : Renewed settings base l) (i : Nat) :
    Renewed settings base (l.settleTurn i) := by
  rcases ho : l.outcomeOf? i with _ | o
  · rwa [settleTurn_none ho]
  obtain ⟨b, hb, hbo⟩ := Option.bind_eq_some_iff.mp ho
  obtain ⟨hsession, hbuilds, -⟩ := tellAll_frame i o b.waiters
    { l with current := if l.current = some i then none else l.current }
  rw [settleTurn_eq hb hbo]
  refine ⟨by rw [hsession]; exact h.begins, by rw [hsession]; exact h.cache, ?_, ?_, ?_⟩
  · rw [hbuilds, hsession]
    exact h.builds
  · intro j o' hj ho'
    rw [outcomeOf?, hbuilds] at ho'
    exact h.refused j o' hj ho'
  · rw [hsession]
    refine AllCallers.tellAll
      (l := { l with current := if l.current = some i then none else l.current }) h.callers
      (fun _ _ hacc => hacc) (fun j c d hs hacc => .hears fun hj => ?_) b.waiters
    rcases hacc.waiting hj i d hs with hpending | ⟨hge, hleaves⟩
    · -- the build had not ended at the reset, so it was cancelled by it
      exact .inl (h.refused i o hpending ho)
    · exact .inr ⟨(h.builds i b hge hb).ended o hbo, hleaves⟩

/-! ### Deeds -/

theorem cancel (h : Renewed settings base l) (i : Nat) : Renewed settings base (l.cancel i) := by
  unfold EventLoop.cancel
  split
  · exact h
  · exact h
  · exact queued (h.modifyCaller fun _ _ _ => .hears fun _ => .inl rfl) _
  · exact h.modifyCaller fun _ _ hacc => hacc.marked

theorem reset (h : Renewed settings base l) : Renewed settings base l.reset := by
  -- to cancel a build changes neither what it reads nor how it ended
  have hmarked : ∀ n, Renewed settings base (l.cancelBuild n) := fun n =>
    h.modifyBuild (fun b hacc => by split <;> exact ⟨hacc.reading, hacc.ended⟩)
      fun b o _ hbo => by
        split at hbo <;> exact .inl hbo
  have hcleared : ∀ l' : EventLoop (Noted σ), Renewed settings base l' →
      Renewed settings base { l' with current := none, session := l'.session.clear } :=
    fun l' h' => ⟨h'.begins, Cache.madeIn_empty settings _, h'.builds, h'.refused, h'.callers⟩
  unfold EventLoop.reset
  rcases l.current with _ | n
  · exact hcleared l h
  · exact hcleared _ (hmarked n)

theorem start (h : Renewed settings base l) (call : Call) :
    Renewed settings base { l with callers := l.callers ++ [({ call } : Caller)] } :=
  ⟨h.begins, h.cache, h.builds, h.refused, h.callers.newCaller (.new settings _ base _ call)⟩

/-- **One deed**: what is told and kept then is accounted for. -/
theorem perform (h : Renewed settings base l) (hd : Dropped base.builds.length l) (d : Deed σ) :
    Renewed settings base (EventLoop.perform settings f.noting l d.noted) := by
  cases d with
  | start call => exact (h.start call).queued _
  | startAtOnce call =>
    exact (h.start call).callerTurn ⟨hd.le, hd.current, hd.cancelled⟩ l.callers.length
  | cancel i => exact h.cancel i
  | reset => exact h.reset
  | change g => exact ⟨h.begins, h.cache, h.builds, h.refused, h.callers⟩
  | turn =>
    rcases hq : l.queue with _ | ⟨t, rest⟩
    · rwa [Deed.noted, perform_turn_nil hq]
    have hpop : Dropped base.builds.length { l with queue := rest } :=
      ⟨hd.le, hd.current, hd.cancelled⟩
    rw [Deed.noted, perform_turn_cons hq]
    cases t with
    | caller i => exact (h.queued rest).callerTurn hpop i
    | build i => exact (h.queued rest).buildTurn hpop i
    | settle i => exact (h.queued rest).settleTurn i

end Renewed

/-- **Every run**: what is told and kept since a reset is accounted for. -/
theorem run_renewed {base : EventLoop σ} {l : EventLoop (Noted σ)} (h : Renewed settings base l)
    (hd : Dropped base.builds.length l) (ds : List (Deed σ)) :
    Renewed settings base (run settings f.noting (ds.map Deed.noted) l) := by
  refine (run_invariant
    (P := fun l => Dropped base.builds.length l ∧ Renewed settings base l)
    (Q := fun d => ∃ d' : Deed σ, d = d'.noted) ?_ ?_ ⟨hd, h⟩).2
  · rintro l _ ⟨hd, h⟩ ⟨d, rfl⟩
    exact ⟨hd.go (BuildsGo.perform l d.noted), h.perform hd d⟩
  · intro d hd
    obtain ⟨d', -, rfl⟩ := List.mem_map.mp hd
    exact ⟨d', rfl⟩

end EventLoop

end StreamResolver.Cipher
