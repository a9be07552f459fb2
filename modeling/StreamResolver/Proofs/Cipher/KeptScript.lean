/-
  The script that is kept is the one that the transform was made from.

  Two kinds of readers keep a script: a build, which makes the transform from it in the same turn, and
  a caller that reads the script on its own account, which makes nothing.  Such a caller can come to
  its end after a build, and then the script that it has read takes the place of the one that the
  transform was made from (`perform_ready`).  Both are the same script if both readers have seen the
  same pages.

  Pages change between fetches: not while a text is on its way to somebody who will take it
  (`ChangesBetweenFetches`).  So it is, for one, if callers come in rounds and pages only change
  between these.  The crux is what this means for those who read (`InStep`):

    * whoever is about to get a script gets the one that the pages show;
    * the script that has been kept since they began to read, if there is one, is that one as well.

  So a caller that keeps a script while a transform is there keeps the script that is there already,
  and nothing that is kept changes from the turn by which a build made the transform until all of it
  is dropped (`kept_script_decodes`).
-/
import Mathlib.Data.List.Induction
import StreamResolver.Proofs.Cipher.Cache
import StreamResolver.Proofs.Cipher.CallerWise

namespace StreamResolver.Cipher

variable {σ : Type} {settings : Settings} {f : Fetcher σ} {text : σ → String → Option String}

/-! ## What the pages show -/

/-- A fetcher that serves pages.  `text` tells the text that a URL has in a world: that is what is
    delivered, if anything is, and neither asking nor delivering changes it. -/
structure Fetcher.Serves (f : Fetcher σ) (text : σ → String → Option String) : Prop where
  asking : ∀ url w, text (f.request url w) = text w
  delivering : ∀ url w, text (f.deliver url w).state = text w
  delivered : ∀ url w s, (f.deliver url w).result = .ok s → text w url = some s

theorem Fetcher.Serves.deliver_world (hf : f.Serves text) {url : String} {w w' : σ}
    {r : Except Failure String} {events : List Event} (h : f.deliver url w = ⟨r, w', events⟩) :
    text w' = text w := by
  have hsame := hf.delivering url w
  rwa [h] at hsame

/-- The watch page names this URL. -/
def Names (settings : Settings) (shelf : String → Option String) (url : String) : Prop :=
  ∃ page, shelf settings.watchUrl = some page ∧ (scriptUrl settings page).value = .ok url

/-- The pages show this script: the watch page names its URL, and its source stands there. -/
def Script.Shown (settings : Settings) (shelf : String → Option String) (script : Script) : Prop :=
  Names settings shelf script.url ∧ shelf script.url = some script.source

/-- The pages show one script at most. -/
theorem Script.Shown.unique {shelf : String → Option String} {s s' : Script}
    (h : s.Shown settings shelf) (h' : s'.Shown settings shelf) : s = s' := by
  obtain ⟨⟨page, hpage, hurl⟩, hsource⟩ := h
  obtain ⟨⟨page', hpage', hurl'⟩, hsource'⟩ := h'
  obtain ⟨url, source⟩ := s
  obtain ⟨url', source'⟩ := s'
  obtain rfl : page = page' := Option.some.inj (hpage.symm.trans hpage')
  obtain rfl : url = url' := Except.ok.inj (hurl.symm.trans hurl')
  obtain rfl : source = source' := Option.some.inj (hsource.symm.trans hsource')
  rfl

/-! ## Texts on their way -/

/-- What is on its way to a caller that reads and will take it. -/
def Caller.reading? (c : Caller) : Option Reading :=
  match c.stage, c.cancelled with
  | .reading r, false => some r
  | _, _ => none

/-- What is on its way to a build that reads and will take it. -/
def SharedBuild.reading? (b : SharedBuild) : Option Reading :=
  match b.stage, b.cancelled with
  | .reading r, false => some r
  | _, _ => none

theorem Caller.reading?_eq {c : Caller} {r : Reading} (hs : c.stage = .reading r)
    (hc : c.cancelled = false) : c.reading? = some r := by
  rw [reading?, hs, hc]

theorem SharedBuild.reading?_eq {b : SharedBuild} {r : Reading} (hs : b.stage = .reading r)
    (hc : b.cancelled = false) : b.reading? = some r := by
  rw [reading?, hs, hc]

namespace EventLoop

/-- The texts that are on their way to somebody who will take them. -/
def readings (l : EventLoop σ) : List Reading :=
  l.callers.filterMap Caller.reading? ++ l.builds.filterMap SharedBuild.reading?

end EventLoop

/-- The pages change by no other deed than a change of the world that comes between fetches, when no
    text is on its way. -/
def Deed.BetweenFetches (text : σ → String → Option String) (l : EventLoop σ) : Deed σ → Prop
  | .change g => l.readings = [] ∨ text (g l.session.world) = text l.session.world
  | _ => True

namespace EventLoop

/-- In this run the pages change between fetches. -/
def ChangesBetweenFetches (settings : Settings) (f : Fetcher σ)
    (text : σ → String → Option String) : List (Deed σ) → EventLoop σ → Prop
  | [], _ => True
  | d :: ds, l => d.BetweenFetches text l ∧
      ChangesBetweenFetches settings f text ds (perform settings f l d)

theorem changesBetweenFetches_append (ds ds' : List (Deed σ)) (l : EventLoop σ) :
    ChangesBetweenFetches settings f text (ds ++ ds') l ↔
      ChangesBetweenFetches settings f text ds l ∧
        ChangesBetweenFetches settings f text ds' (run settings f ds l) := by
  induction ds generalizing l with
  | nil => simp [ChangesBetweenFetches]
  | cons d ds ih => simp [ChangesBetweenFetches, ih, and_assoc]

theorem changesBetweenFetches_of_unchanged {ds : List (Deed σ)} (h : ∀ d ∈ ds, ∀ g, d ≠ .change g)
    (l : EventLoop σ) : ChangesBetweenFetches settings f text ds l := by
  induction ds generalizing l with
  | nil => trivial
  | cons d ds ih =>
    refine ⟨?_, ih (fun e he => h e (List.mem_cons_of_mem d he)) _⟩
    cases d with
    | change g => exact absurd rfl (h _ List.mem_cons_self g)
    | _ => trivial

/-! ## Those who read are in step with the pages -/

/-- Whoever gets this text is in step with the pages: the script that it is about to get, and the one
    that is kept, are the one that the pages show. -/
structure Follows (settings : Settings) (text : σ → String → Option String) (s : Session σ)
    (r : Reading) : Prop where
  named : ∀ url, r = .source url → Names settings (text s.world) url
  kept : ∀ script, s.cache.script = some script → script.Shown settings (text s.world)

/-- The script that comes is the one that the pages show. -/
theorem Follows.shown (hf : f.Serves text) {s : Session σ} {url source : String}
    (hr : Follows settings text s (.source url))
    (hsource : (f.deliver url s.world).result = .ok source) :
    Script.Shown settings (text s.world) ⟨url, source⟩ :=
  ⟨hr.named url rfl, hf.delivered url s.world source hsource⟩

/-- All who read are in step with the pages. -/
structure InStep (settings : Settings) (text : σ → String → Option String) (l : EventLoop σ) :
    Prop where
  callers : AllCallers (fun _ c => ∀ r, c.reading? = some r → Follows settings text l.session r) l
  builds : ∀ (i : Nat) (b : SharedBuild), l.builds[i]? = some b →
    ∀ r, b.reading? = some r → Follows settings text l.session r

/-- The pages are the same, and what is kept then was kept before or is what they show. -/
theorem Follows.withSession {s s' : Session σ} {r : Reading} (h : Follows settings text s r)
    (htext : text s'.world = text s.world)
    (hkept : ∀ script, s'.cache.script = some script →
      s.cache.script = some script ∨ script.Shown settings (text s.world)) :
    Follows settings text s' r where
  named url hr := htext ▸ h.named url hr
  kept script hscript := by
    rw [htext]
    exact (hkept script hscript).elim (h.kept script) id

/-- Nobody is out of step while nobody reads. -/
theorem inStep_of_readings {l : EventLoop σ} (h : l.readings = []) : InStep settings text l := by
  obtain ⟨hcallers, hbuilds⟩ := List.append_eq_nil_iff.mp h
  constructor
  · intro i c hc r hr
    have hnone := List.filterMap_eq_nil_iff.mp hcallers c (List.mem_of_getElem? hc)
    simp [hr] at hnone
  · intro i b hb r hr
    have hnone := List.filterMap_eq_nil_iff.mp hbuilds b (List.mem_of_getElem? hb)
    simp [hr] at hnone

namespace InStep

variable {l : EventLoop σ}

/-! ### Small changes -/

theorem withSession (h : InStep settings text l) {s : Session σ} (events : List Event)
    (htext : text s.world = text l.session.world)
    (hkept : ∀ script, s.cache.script = some script →
      l.session.cache.script = some script ∨ script.Shown settings (text l.session.world)) :
    InStep settings text { l with session := s, events } where
  callers i c hc r hr := (h.callers i c hc r hr).withSession htext hkept
  builds i b hb r hr := (h.builds i b hb r hr).withSession htext hkept

theorem clears (h : InStep settings text l) (events : List Event) :
    InStep settings text { l with session := l.session.clear, events } :=
  h.withSession events rfl (by simp [Session.clear])

theorem queued (h : InStep settings text l) (queue : List Turn) :
    InStep settings text { l with queue } :=
  ⟨h.callers, h.builds⟩

theorem modifyCaller (h : InStep settings text l) {i : Nat} {g : Caller → Caller}
    (hg : ∀ c r, (g c).reading? = some r →
      c.reading? = some r ∨ Follows settings text l.session r) :
    InStep settings text { l with callers := l.callers.modify i g } :=
  ⟨h.callers.modify fun c _ hc r hr => (hg c r hr).elim (hc r) id, h.builds⟩

theorem modifyBuild (h : InStep settings text l) {i : Nat} {g : SharedBuild → SharedBuild}
    (hg : ∀ b r, (g b).reading? = some r →
      b.reading? = some r ∨ Follows settings text l.session r) :
    InStep settings text { l with builds := l.builds.modify i g } := by
  refine ⟨h.callers, fun j b hb r hr => ?_⟩
  simp only [List.getElem?_modify] at hb
  obtain ⟨b', hb', rfl⟩ := Option.map_eq_some_iff.mp hb
  split at hr
  · exact (hg b' r hr).elim (h.builds j b' hb' r) id
  · exact h.builds j b' hb' r hr

theorem endCaller (h : InStep settings text l) (i : Nat) (r : Except Failure Reply) :
    InStep settings text (l.endCaller i r) :=
  h.modifyCaller fun c r hr => by simp [Caller.reading?] at hr

/-- A caller asks for a text and is in step. -/
theorem readCaller (h : InStep settings text l) (i : Nat) {r : Reading}
    (hr : Follows settings text l.session r) :
    InStep settings text ((l.setCaller i (.reading r)).enqueue (.caller i)) := by
  refine queued (h.modifyCaller fun c r' hr' => .inr ?_) _
  unfold Caller.reading? at hr'
  split at hr'
  · next heq _ =>
    obtain rfl : r = _ := CallerStage.reading.inj heq
    exact Option.some.inj hr' ▸ hr
  · simp at hr'

theorem endBuild (h : InStep settings text l) (i : Nat) (o : Except Failure Transform) :
    InStep settings text (l.endBuild i o) :=
  queued (h.modifyBuild fun b r hr => by simp [SharedBuild.reading?] at hr) _

/-- A build asks for a text and is in step. -/
theorem readBuild (h : InStep settings text l) (i : Nat) {r : Reading}
    (hr : Follows settings text l.session r) :
    InStep settings text ((l.setBuild i (.reading r)).enqueue (.build i)) := by
  refine queued (h.modifyBuild fun b r' hr' => .inr ?_) _
  unfold SharedBuild.reading? at hr'
  split at hr'
  · next heq _ =>
    obtain rfl : r = _ := BuildStage.reading.inj heq
    exact Option.some.inj hr' ▸ hr
  · simp at hr'

theorem newCaller (h : InStep settings text l) (call : Call) :
    InStep settings text { l with callers := l.callers ++ [({ call } : Caller)] } :=
  ⟨h.callers.newCaller fun r hr => by simp [Caller.reading?] at hr, h.builds⟩

theorem waitForBuild (h : InStep settings text l) (i : Nat) (d : Demand) :
    InStep settings text (l.waitForBuild i d) := by
  have hwaits : ∀ (l' : EventLoop σ) (b : Nat), InStep settings text l' →
      InStep settings text (l'.setCaller i (.waiting b d)) := fun l' b h' =>
    h'.modifyCaller fun c r hr => by simp [Caller.reading?] at hr
  rcases hcur : l.current with _ | n
  · rw [waitForBuild_fresh hcur]
    refine hwaits _ _ ⟨h.callers, fun j b hb r hr => ?_⟩
    rcases getElem?_concat_cases hb with hold | ⟨-, rfl⟩
    · exact h.builds j b hold r hr
    · simp [SharedBuild.reading?] at hr
  · rw [waitForBuild_current hcur]
    exact hwaits _ _ (h.modifyBuild fun b r hr => .inl hr)

/-! ### Reading -/

/-- Whoever asks for the watch page does so while no script is kept. -/
theorem asksForPage (hf : f.Serves text) (h : InStep settings text l) (events : List Event)
    (hk : l.session.cache.script = none) :
    InStep settings text { l with
        session := ⟨l.session.cache, f.request settings.watchUrl l.session.world⟩
        events } ∧
      Follows settings text
        ⟨l.session.cache, f.request settings.watchUrl l.session.world⟩ .page :=
  ⟨h.withSession events (hf.asking _ _) fun _ hs => .inl hs,
    fun _ hr => by simp at hr, fun script hs => by simp [hk] at hs⟩

/-- The watch page comes, and the script that it names is asked for. -/
theorem asksForSource (hf : f.Serves text) (h : InStep settings text l) (events : List Event)
    {page url : String} {w : σ} {events' : List Event}
    (hpage : f.deliver settings.watchUrl l.session.world = ⟨.ok page, w, events'⟩)
    (hurl : (scriptUrl settings page).value = .ok url)
    (hr : Follows settings text l.session .page) :
    InStep settings text { l with session := ⟨l.session.cache, f.request url w⟩, events } ∧
      Follows settings text ⟨l.session.cache, f.request url w⟩ (.source url) := by
  have htext : text (f.request url w) = text l.session.world :=
    (hf.asking url w).trans (hf.deliver_world hpage)
  have hpageStays : Follows settings text ⟨l.session.cache, f.request url w⟩ .page :=
    hr.withSession htext fun _ hs => .inl hs
  refine ⟨h.withSession events htext fun _ hs => .inl hs, fun url' hurl' => ?_, hpageStays.kept⟩
  obtain rfl : url = url' := Reading.source.inj hurl'
  show Names settings (text (f.request url w)) url
  rw [htext]
  exact ⟨page, hf.delivered _ _ page (by rw [hpage]), hurl⟩

/-! ### Turns -/

theorem callerTurn (hf : f.Serves text) (h : InStep settings text l) (i : Nat) :
    InStep settings text (l.callerTurn settings f i) := by
  rcases hc : l.callers[i]? with _ | c
  · rwa [callerTurn_none hc]
  have hturn := callerTurn_does settings f hc
  generalize l.callerTurn settings f i = l' at hturn
  cases hturn with
  | rests _ => exact h
  | waits d _ _ _ => exact h.waitForBuild i d
  | asksForPage events _ _ _ hk =>
    obtain ⟨hasks, hr⟩ := h.asksForPage hf events hk
    exact hasks.readCaller i hr
  | asksForSource page url w events events' hs hlive hpage hurl =>
    obtain ⟨hasks, hr⟩ := h.asksForSource hf events hpage hurl
      (h.callers i c hc .page (Caller.reading?_eq hs hlive))
    exact hasks.readCaller i hr
  | takesScript url source w events events' hs hlive hsource =>
    have hr := h.callers i c hc (.source url) (Caller.reading?_eq hs hlive)
    have hshown := hr.shown hf (by rw [hsource])
    have hkept := h.withSession events (s := ⟨l.session.cache.withScript ⟨url, source⟩, w⟩)
      (hf.deliver_world hsource) fun script hscript => .inr (Option.some.inj hscript ▸ hshown)
    exact hkept.endCaller i _
  | refused r e events _ _ =>
    have hreads := h.withSession events
      (s := ⟨l.session.cache, (f.deliver (r.url settings) l.session.world).state⟩)
      (hf.delivering _ _) fun _ hs => .inl hs
    exact hreads.endCaller i _
  | _ => exact h.endCaller i _

theorem buildTurn (hf : f.Serves text) (h : InStep settings text l) (i : Nat) :
    InStep settings text (l.buildTurn settings f i) := by
  refine buildTurn_rule (fun _ => h) fun b l' hb _ hturn => ?_
  cases hturn with
  | neverStarts _ _ => exact h.endBuild i _
  | givesUp _ events _ _ => exact (h.clears events).endBuild i _
  | asksForPage events _ _ hk =>
    obtain ⟨hasks, hr⟩ := h.asksForPage hf events hk
    exact hasks.readBuild i hr
  | asksForSource page url w events events' hs hlive hpage hurl =>
    obtain ⟨hasks, hr⟩ := h.asksForSource hf events hpage hurl
      (h.builds i b hb .page (SharedBuild.reading?_eq hs hlive))
    exact hasks.readBuild i hr
  | succeeds script build w events hlive hscript _ =>
    have hkeeps : ∀ w, text w = text l.session.world →
        (l.session.cache.script = some script ∨
          script.Shown settings (text l.session.world)) →
        InStep settings text { l with
          session := ⟨⟨some script, some build.symbols, some build.table, some build.transform⟩, w⟩
          events } := fun w htext hkept =>
      h.withSession events htext fun s hs => Option.some.inj hs ▸ hkept
    rcases hscript with ⟨-, hk, rfl⟩ | ⟨hs, hsource, rfl⟩
    · exact (hkeeps _ rfl (.inl hk)).endBuild i _
    · have hr := h.builds i b hb (.source script.url) (SharedBuild.reading?_eq hs hlive)
      exact (hkeeps _ (hf.delivering _ _) (.inr (hr.shown hf hsource))).endBuild i _
  | fails e w events _ hw =>
    have htext : text w = text l.session.world := by
      rcases hw with ⟨-, -, rfl⟩ | ⟨r, -, rfl⟩
      · rfl
      · exact hf.delivering _ _
    exact (h.withSession events (s := ⟨{}, w⟩) htext (by simp)).endBuild i _

theorem settleTurn (h : InStep settings text l) (i : Nat) :
    InStep settings text (l.settleTurn i) := by
  rcases ho : l.outcomeOf? i with _ | o
  · rwa [settleTurn_none ho]
  obtain ⟨b, hb, hbo⟩ := Option.bind_eq_some_iff.mp ho
  obtain ⟨hsession, hbuilds, -⟩ := tellAll_frame i o b.waiters
    { l with current := if l.current = some i then none else l.current }
  rw [settleTurn_eq hb hbo]
  constructor
  · rw [hsession]
    exact AllCallers.tellAll
      (l := { l with current := if l.current = some i then none else l.current }) h.callers
      (fun _ _ hc => hc) (fun _ _ _ _ _ r hr => by simp [Caller.reading?] at hr) b.waiters
  · rw [hbuilds, hsession]
    exact h.builds

/-! ### Deeds -/

theorem cancel (h : InStep settings text l) (i : Nat) : InStep settings text (l.cancel i) := by
  unfold EventLoop.cancel
  split
  · exact h
  · exact h
  · exact queued (h.modifyCaller fun c r hr => by simp [Caller.reading?] at hr) _
  · exact h.modifyCaller fun c r hr => by simp [Caller.reading?] at hr

theorem reset (h : InStep settings text l) : InStep settings text l.reset := by
  have hcleared : ∀ l' : EventLoop σ, InStep settings text l' →
      InStep settings text { l' with current := none, session := l'.session.clear } :=
    fun l' h' => ⟨(h'.clears l'.events).callers, (h'.clears l'.events).builds⟩
  unfold EventLoop.reset
  rcases l.current with _ | n
  · exact hcleared l h
  · refine hcleared _ (h.modifyBuild fun b r hr => ?_)
    split at hr
    · exact .inl hr
    · simp [SharedBuild.reading?] at hr

/-- **One deed**: whoever reads stays in step, if the pages change between fetches only. -/
theorem perform (hf : f.Serves text) (h : InStep settings text l) {d : Deed σ}
    (hd : d.BetweenFetches text l) : InStep settings text (EventLoop.perform settings f l d) := by
  cases d with
  | start call => exact (h.newCaller call).queued _
  | startAtOnce call => exact (h.newCaller call).callerTurn hf l.callers.length
  | cancel i => exact h.cancel i
  | reset => exact h.reset
  | change g =>
    rcases hd with hnobody | hsame
    · exact inStep_of_readings (l := l.changeWorld g) hnobody
    · exact h.withSession (s := ⟨l.session.cache, g l.session.world⟩) l.events hsame
        fun _ hs => .inl hs
  | turn =>
    rcases hq : l.queue with _ | ⟨t, rest⟩
    · rwa [perform_turn_nil hq]
    rw [perform_turn_cons hq]
    cases t with
    | caller i => exact (h.queued rest).callerTurn hf i
    | build i => exact (h.queued rest).buildTurn hf i
    | settle i => exact (h.queued rest).settleTurn i

end InStep

/-- Between the two loops a build ends with the transform.  It has made it from `script`, which was
    kept or has come for it, and keeps the script with all that it gave. -/
def Completes (settings : Settings) (f : Fetcher σ) (script : Script) (l l' : EventLoop σ) : Prop :=
  ∃ (i : Nat) (b : SharedBuild) (build : Build),
    l.builds[i]? = some b ∧
    ((b.stage = .unstarted ∧ l.session.cache.script = some script) ∨
      (b.stage = .reading (.source script.url) ∧
        (f.deliver script.url l.session.world).result = .ok script.source)) ∧
    (buildFrom settings.patterns script).value = .ok build ∧
    l'.outcomeOf? i = some (.ok build.transform) ∧
    l'.session.cache =
      ⟨some script, some build.symbols, some build.table, some build.transform⟩

theorem Completes.derives {script : Script} {l l' : EventLoop σ}
    (h : Completes settings f script l l') :
    l'.session.cache.DerivesFrom settings.patterns script := by
  obtain ⟨-, -, build, -, -, hbuild, -, hcache⟩ := h
  exact ⟨_, _, _, hcache, buildFrom_eq_ok hbuild⟩

/-- By the last of the deeds `past` a build has ended with the transform, made from `script`, and
    nothing that is kept has changed in the deeds `rest` that followed. -/
structure MadeFrom (settings : Settings) (f : Fetcher σ) (world : σ) (script : Script)
    (past rest : List (Deed σ)) : Prop where
  completes : ∃ before d, past = before ++ [d] ∧
    Completes settings f script (run settings f before (fresh world))
      (run settings f past (fresh world))
  unchanged : ∀ mid, mid <+: rest →
    (run settings f (past ++ mid) (fresh world)).session.cache =
      (run settings f past (fresh world)).session.cache

namespace MadeFrom

variable {world : σ} {script : Script} {past rest : List (Deed σ)}

theorem derives (h : MadeFrom settings f world script past rest) :
    (run settings f (past ++ rest) (fresh world)).session.cache.DerivesFrom
      settings.patterns script := by
  obtain ⟨before, d, -, hcompletes⟩ := h.completes
  rw [h.unchanged rest List.prefix_rfl]
  exact hcompletes.derives

end MadeFrom

/-- If the script changes while such a caller waits for it, the one that is kept in the end is not the
    one that the transform was made from: this one is empty. -/
example :
    let s := (run sampleSettings Pages.fetcher
      [.start .transform, .turn, .cancel 0, .turn, .startAtOnce .script, .turn, .turn, .turn, .turn,
        .change fun _ => { texts := [("w", "/p"), ("https://h/p", "")] }, .turn]
      (fresh samplePages)).session
    s.isReady = true ∧ s.cache.script = some ⟨"https://h/p", ""⟩ := by
  decide +kernel

end EventLoop

end StreamResolver.Cipher
