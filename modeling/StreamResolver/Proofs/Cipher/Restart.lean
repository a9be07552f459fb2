/-
  A session after a reset is as good as a fresh one.

  `Restarts` says what a reset is worth, at whatever point of a build it comes:

    * the builds that were there are inert: whenever one of them has a turn or is settled, the
      session and the current build stay as they are, so it keeps nothing, clears nothing that a
      later build has kept, and does not take a later build's place;
    * whoever begins after the reset fares as on a fresh session over the same world: the same moves
      from then on give the same outcomes, and leave the same pieces kept and the same world, in
      which it shows what was asked for.

  The crux is that the dropped builds and the callers in flight are out of sight (`View`) and stay
  idle.  A dropped build that has not ended is cancelled, and its turn comes before anything can be
  kept again.  A caller in flight that needs the transform only once ends with what it is told, so it
  never begins another build (`Caller.Spent`); a caller that came and has not begun is nothing but a
  caller that begins after the reset.
-/
import Mathlib.Data.List.Basic
import StreamResolver.Proofs.Cipher.Deciphering
import StreamResolver.Proofs.Cipher.Dropped
import StreamResolver.Proofs.Cipher.Lined
import StreamResolver.Proofs.Cipher.View

namespace StreamResolver.Cipher

/-! ## Callers that need nothing more -/

/-- Whether a caller has a demand: it waits for a build with it, or was told an outcome for it. -/
def Caller.Wants (c : Caller) (d : Demand) : Prop :=
  (∃ b, c.stage = .waiting b d) ∨ ∃ o, c.stage = .told d o

/-- Whether a caller will not need the transform any more, except for what it already waits for. -/
structure Caller.Spent (settings : Settings) (c : Caller) : Prop where
  begun : c.stage = .unstarted → c.cancelled = true
  once : ∀ d, c.Wants d → d.size settings.param.toList = 1

/-- A demand of size one is done with the transform it was told. -/
theorem Demand.advance_once {param : List Char} {d d' : Demand} {t : Transform}
    (h : d.size param = 1) : d.advance param t ≠ .inr d' := by
  intro hadvance
  have hsize := advance_size hadvance
  have hpos := d'.size_pos param
  omega

theorem Caller.Spent.not_needs {settings : Settings} {c : Caller} (h : c.Spent settings)
    (hlive : c.cancelled = false) (d : Demand) : ¬ c.Needs settings d := by
  rintro (⟨hs, -⟩ | ⟨d', t, hs, hadvance⟩)
  · rw [h.begun hs] at hlive
    simp at hlive
  · exact Demand.advance_once (h.once d' (.inr ⟨_, hs⟩)) hadvance

/-- Whether a call needs the transform just once. -/
def Call.AsksOnce (call : Call) : Prop := call = .transform ∨ ∃ value, call = .decode value

namespace EventLoop

variable {σ : Type} {settings : Settings} {f : Fetcher σ} {l : EventLoop σ}

theorem callerWise_spent (settings : Settings) (out : Nat → Prop) :
    CallerWise settings fun i c => out i → c.Spent settings where
  marked _ _ h hi := ⟨fun _ => rfl, (h hi).once⟩
  ended _ _ _ _ _ := ⟨by simp, by simp [Caller.Wants]⟩
  waiting _ _ _ d hd hlive h hi := absurd hd ((h hi).not_needs hlive d)
  told i c b d o hs h hi := by
    refine ⟨by simp, fun d' hd' => (h hi).once d' (.inl ⟨b, ?_⟩)⟩
    obtain rfl : d = d' := by simpa [Caller.Wants] using hd'
    exact hs
  reading _ _ _ _ _ _ _ := ⟨by simp, by simp [Caller.Wants]⟩

/-- A caller whose call needs the transform just once never needs it more often. -/
theorem callerWise_once (settings : Settings) :
    CallerWise settings fun _ c => c.call.AsksOnce →
      ∀ d, c.Wants d → d.size settings.param.toList = 1 where
  marked _ _ h := h
  ended _ _ _ _ := by simp [Caller.Wants]
  waiting i c b d hd _ h hcall d' hd' := by
    obtain rfl : d = d' := by simpa [Caller.Wants] using hd'
    rcases hd with ⟨-, hd⟩ | ⟨d', t, hs, hadvance⟩
    · have hcall' : c.call = .transform ∨ ∃ value, c.call = .decode value := hcall
      rcases hcall' with hcall' | ⟨value, hcall'⟩ <;>
        · rw [hcall', Call.demand?, Option.some.injEq] at hd
          rw [← hd]
          rfl
    · exact absurd hadvance (Demand.advance_once (h hcall d' (.inr ⟨_, hs⟩)))
  told i c b d o hs h hcall d' hd' := by
    obtain rfl : d = d' := by simpa [Caller.Wants] using hd'
    exact h hcall d (.inl ⟨b, hs⟩)
  reading _ _ _ _ _ _ := by simp [Caller.Wants]

/-! ## Dropped builds are inert -/

/-- A turn of a dropped build, or its settling, touches neither the session nor the current build. -/
theorem dropped_inert {n i : Nat} (h : InOrder settings l) (hd : Dropped n l) (hi : i < n)
    {rest : List Turn} (hq : l.queue = .build i :: rest ∨ l.queue = .settle i :: rest) :
    (l.takeTurn settings f).session = l.session ∧
      (l.takeTurn settings f).current = l.current := by
  have hcur : l.current ≠ some i := fun heq => absurd (hd.current i heq) (by omega)
  rcases hq with hq | hq
  · obtain ⟨b, hb, ho⟩ := h.pending_of_turn hq
    have hcancelled := hd.cancelled i b hi hb ho
    have hturn := buildTurn_cases settings f (l := { l with queue := rest }) hb ho
    rw [show l.takeTurn settings f = ({ l with queue := rest } : EventLoop σ).buildTurn settings f i
      by simp [takeTurn, hq, turn]]
    refine ⟨?_, hturn.current⟩
    obtain ⟨s, events, hs, hends⟩ := hturn.of_cancelled hcancelled
    rw [hends]
    show s = l.session
    rcases hs with rfl | rfl
    · rfl
    · -- what it clears is empty already
      show l.session.clear = l.session
      rw [Session.clear, ← h.pending_empty i ⟨b, hb, ho⟩]
  · rw [show l.takeTurn settings f = ({ l with queue := rest } : EventLoop σ).settleTurn i
      by simp [takeTurn, hq, turn]]
    refine ⟨(settleTurn_quiet i _).2, ?_⟩
    rcases ho : l.outcomeOf? i with _ | o
    · rw [settleTurn_none (l := { l with queue := rest }) ho]
    · obtain ⟨b, hb, hbo⟩ := Option.bind_eq_some_iff.mp ho
      rw [settleTurn_eq (l := { l with queue := rest }) hb hbo]
      obtain ⟨-, -, hcurrent, -⟩ := tellAll_frame i o b.waiters
        { l with queue := rest, current := if l.current = some i then none else l.current }
      rw [hcurrent]
      exact if_neg hcur

/-! ## Who is seen after a reset -/

/-- Different numbers, each replaced by its place. -/
theorem filterMap_idxOf? {β : Type} {xs : List Nat} (h : xs.Nodup) (g : Nat → β) :
    xs.filterMap (fun x => (xs.idxOf? x).map g) = (List.range' 0 xs.length).map g := by
  have hplace : ∀ x ∈ xs, (xs.idxOf? x).map g = some (g (xs.idxOf x)) := by
    intro x hx
    have hlt := List.idxOf_lt_length_iff.mpr hx
    rw [List.idxOf?_eq_some_iff.mpr ⟨hlt, by simp, ?_⟩, Option.map_some]
    intro j hj heq
    have hj' := List.Nodup.idxOf_getElem h j (Nat.lt_trans hj hlt)
    rw [heq] at hj'
    exact absurd hj' (Nat.ne_of_gt hj)
  rw [List.filterMap_congr hplace]
  refine List.ext_getElem (by simp) fun k hk hk' => ?_
  have hlt : k < xs.length := by simpa using hk'
  simp [List.Nodup.idxOf_getElem h k hlt]

/-- The place of a caller that is seen after the reset: first come those that stood in line. -/
def seat (l : EventLoop σ) (k : Nat) : Nat :=
  match l.lined[k]? with
  | some (i, _) => i
  | none => l.callers.length + (k - l.lined.length)

/-- What is seen after the reset: those that stood in line, all that come later, and no build that
    was there. -/
def viewAfterReset (l : EventLoop σ) : View where
  caller? i :=
    if i < l.callers.length then (l.lined.map Prod.fst).idxOf? i
    else some (l.lined.length + (i - l.callers.length))
  past := l.builds.length
  caller_inj {i i' j} hi hi' := by
    have hlt : ∀ i, (l.lined.map Prod.fst).idxOf? i = some j →
        ∃ h : j < l.lined.length, (l.lined[j]).1 = i := by
      intro i hi
      obtain ⟨h, heq, -⟩ := List.idxOf?_eq_some_iff.mp hi
      exact ⟨by simpa using h, by simpa using heq⟩
    split at hi <;> split at hi'
    · obtain ⟨_, heq⟩ := hlt i hi
      obtain ⟨_, heq'⟩ := hlt i' hi'
      exact heq.symm.trans heq'
    · obtain ⟨h, -⟩ := hlt i hi
      simp only [Option.some.injEq] at hi'
      omega
    · obtain ⟨h, -⟩ := hlt i' hi'
      simp only [Option.some.injEq] at hi
      omega
    · simp only [Option.some.injEq] at hi hi'
      omega

/-- The fresh session that a reset is compared with: those that stood in line have come. -/
def afresh (l : EventLoop σ) : EventLoop σ :=
  (fresh l.session.world).startAll (l.lined.map Prod.snd)

theorem lined_index (h : Lined l) {k i : Nat} {call : Call} (hk : l.lined[k]? = some (i, call)) :
    (l.lined.map Prod.fst).idxOf? i = some k ∧ i < l.callers.length ∧
      l.callers[i]? = some { call } := by
  obtain ⟨hlt, hget⟩ := List.getElem?_eq_some_iff.mp hk
  obtain ⟨hmem, hc⟩ := mem_lined.mp (List.mem_of_getElem? hk)
  refine ⟨?_, (List.getElem?_eq_some_iff.mp hc).1, hc⟩
  refine List.idxOf?_eq_some_iff.mpr ⟨by simpa using hlt, by simp [hget], ?_⟩
  -- nobody stands in line twice
  intro j hj heq
  have hpairs := List.pairwise_iff_getElem.mp (List.nodup_iff_pairwise_ne.mp h.nodup) j k
    (by simp; omega) (by simpa using hlt) hj
  exact hpairs (by rw [heq]; simp [hget])

theorem caller?_seat (h : Lined l) (k : Nat) : l.viewAfterReset.caller? (l.seat k) = some k := by
  simp only [viewAfterReset, seat]
  rcases hk : l.lined[k]? with _ | ⟨i, call⟩
  · have hge := List.getElem?_eq_none_iff.mp hk
    have hnot : ¬ l.callers.length + (k - l.lined.length) < l.callers.length := by omega
    simp only [hnot, if_false, Option.some.injEq]
    omega
  · obtain ⟨hidx, hlt, -⟩ := lined_index h hk
    simp only [hlt, if_true, hidx]

theorem afresh_eq (l : EventLoop σ) :
    l.afresh = { fresh l.session.world with
      callers := (l.lined.map Prod.snd).map fun call => ({ call } : Caller)
      queue := (List.range' 0 l.lined.length).map .caller } := by
  rw [afresh, startAll_eq, List.length_map]
  rfl

/-- Those that stood in line have not begun, on either side. -/
theorem callers_afresh (h : Lined l) {i j : Nat} (hij : l.viewAfterReset.caller? i = some j) :
    l.callers[i]? = (l.afresh.callers[j]?).map (Caller.shift l.viewAfterReset.past) := by
  rw [afresh_eq]
  simp only [List.map_map, viewAfterReset] at hij ⊢
  split at hij
  · obtain ⟨hj, hget, -⟩ := List.idxOf?_eq_some_iff.mp hij
    have hj' : j < l.lined.length := by simpa using hj
    have hpair : l.lined[j]? = some (i, (l.lined[j]).2) := by
      rw [List.getElem?_eq_getElem hj']
      congr 1
      exact Prod.ext (by simpa using hget) rfl
    obtain ⟨-, -, hc⟩ := lined_index h hpair
    rw [hc]
    simp [hj', Caller.shift, CallerStage.shift]
  · simp only [Option.some.injEq] at hij
    rw [List.getElem?_eq_none (by omega), List.getElem?_eq_none (by simp; omega)]
    rfl

/-- A turn that was in the queue is seen if it is the first turn of a caller. -/
theorem turn?_viewAfterReset (h : Lined l) (horder : InOrder settings l) {t : Turn}
    (ht : t ∈ l.queue) :
    l.viewAfterReset.turn? t = (l.beginner? t).bind fun p =>
      ((l.lined.map Prod.fst).idxOf? p.1).map .caller := by
  cases t with
  | caller i =>
    have hlt := h.callers i ht
    simp only [View.turn?, viewAfterReset, hlt, if_true]
    rcases hbegin : l.beginner? (.caller i) with _ | ⟨i', call⟩
    · -- one who has begun does not stand in line
      rw [List.idxOf?_eq_none_iff.mpr]
      · rfl
      · intro hmem
        obtain ⟨⟨i', call⟩, hin, rfl⟩ := List.mem_map.mp hmem
        rw [beginner?_eq_some.mpr ⟨rfl, (mem_lined.mp hin).2⟩] at hbegin
        simp at hbegin
    · obtain ⟨heq, -⟩ := beginner?_eq_some.mp hbegin
      rw [Turn.caller.injEq] at heq
      rw [heq]
      rfl
  | build b =>
    obtain ⟨x, hx, -⟩ := (horder.turns_pending b).mp (List.mem_filterMap.mpr ⟨_, ht, rfl⟩)
    have hlt := (List.getElem?_eq_some_iff.mp hx).1
    rw [View.turn?, View.build?_eq_none.mpr hlt]
    rfl
  | settle b =>
    rw [View.turn?, View.build?_eq_none.mpr (h.settles b ht)]
    rfl

/-- **After a reset**, the fresh session is what is seen. -/
theorem shows_reset (h : Lined l) (horder : InOrder settings l) :
    Shows l.viewAfterReset l.reset l.afresh := by
  obtain ⟨hcallers, hqueue, -⟩ := reset_frame l
  refine ⟨?_, ?_, ?_, ?_, ?_, ?_, ?_⟩
  · rw [afresh_eq]
    exact (reset_quiet l).2
  · rw [reset_current, afresh_eq]
    rfl
  · intro i j hij
    rw [hcallers]
    exact callers_afresh h hij
  · intro k
    rw [hcallers, afresh_eq]
    have hnot : ¬ l.callers.length + k < l.callers.length := by omega
    simp only [viewAfterReset, hnot, if_false, List.length_map, Option.some.injEq]
    omega
  · intro b
    rw [afresh_eq, List.getElem?_eq_none (l := l.reset.builds)
      (by rw [length_reset]; exact Nat.le_add_right _ _)]
    rfl
  · rw [length_reset, afresh_eq]
    rfl
  · rw [hqueue, afresh_eq, List.filterMap_congr fun t ht => turn?_viewAfterReset h horder ht,
      ← List.filterMap_filterMap, ← lined]
    have hplaces := filterMap_idxOf? h.nodup Turn.caller
    rw [List.filterMap_map, List.length_map] at hplaces
    exact hplaces

/-! ## Moves after a reset -/

end EventLoop

/-- Something that happens to a loop from outside, or a tick. -/
inductive Move (σ : Type) where
  /-- A caller lines up. -/
  | start (call : Call)
  /-- A caller has its first turn at once. -/
  | startAtOnce (call : Call)
  | cancel (k : Nat)
  | reset
  /-- The world changes. -/
  | change (g : σ → σ)
  | tick

/-- A move by which no caller reads the script on its own account. -/
def Move.Shares {σ : Type} : Move σ → Prop
  | .start call | .startAtOnce call => call ≠ .script
  | _ => True

namespace EventLoop

/-- What a move does; `place` is where the caller with a number is kept. -/
def make (settings : Settings) (f : Fetcher σ) (place : Nat → Nat) (l : EventLoop σ) :
    Move σ → EventLoop σ
  | .start call => l.start call
  | .startAtOnce call => l.startAtOnce settings f call
  | .cancel k => l.cancel (place k)
  | .reset => l.reset
  | .change g => l.changeWorld g
  | .tick => l.tick settings f

/-- Moves one after another. -/
def makeAll (settings : Settings) (f : Fetcher σ) (place : Nat → Nat) (ms : List (Move σ))
    (l : EventLoop σ) : EventLoop σ :=
  ms.foldl (make settings f place) l

/-- What keeps the turns out of sight idle: builds keep their order, and whoever is out of sight
    needs nothing more. -/
def Quiet (settings : Settings) (w : View) (l : EventLoop σ) : Prop :=
  InOrder settings l ∧ AllCallers (fun i c => w.caller? i = none → c.Spent settings) l

theorem Quiet.perform {w : View} {v : EventLoop σ} (h : Quiet settings w l) (hshows : Shows w l v)
    {d : Deed σ} (hd : d.Shares) : Quiet settings w (EventLoop.perform settings f l d) := by
  refine ⟨h.1.perform hd, h.2.perform (callerWise_spent settings _) fun call _ hnone => ?_⟩
  -- whoever comes is seen
  have hseen := hshows.newcomers 0
  rw [Nat.add_zero, hnone] at hseen
  simp at hseen

theorem Quiet.takeTurn {w : View} (h : Quiet settings w l) :
    Quiet settings w (l.takeTurn settings f) :=
  ⟨h.1.takeTurn, h.2.takeTurn (callerWise_spent settings _)⟩

theorem Quiet.idle {w : View} (h : Quiet settings w l)
    (hpast : ∀ b, l.current = some b → w.past ≤ b) {t : Turn} (ht : w.turn? t = none) :
    Idle settings l t := by
  cases t with
  | caller i =>
    intro c hc
    refine ⟨h.1.callers_share c (List.mem_of_getElem? hc), fun d hd hlive => ?_⟩
    exact absurd hd ((h.2 i c hc (Option.map_eq_none_iff.mp ht)).not_needs hlive d)
  | build b =>
    intro x hx ho
    have hlt := View.build?_eq_none.mp (Option.map_eq_none_iff.mp ht)
    refine ⟨?_, h.1.pending_empty b ⟨x, hx, ho⟩⟩
    -- were it live, it would be the current build, which is in sight
    rcases hc : x.cancelled with _ | _
    · have hge := hpast b (h.1.live_current b x hx ho hc)
      omega
    · rfl
  | settle b => trivial

/-- **One move** is the same move for whoever looks. -/
theorem Shows.make {w : View} {v : EventLoop σ} (hshows : Shows w l v) (h : Quiet settings w l)
    {place : Nat → Nat} (hplace : ∀ k, w.caller? (place k) = some k) {m : Move σ} (hm : m.Shares) :
    Shows w (EventLoop.make settings f place l m) (EventLoop.make settings f id v m) ∧
      Quiet settings w (EventLoop.make settings f place l m) := by
  cases m with
  | start call => exact ⟨hshows.start call, h.perform (f := f) (d := .start call) hshows hm⟩
  | startAtOnce call =>
    exact ⟨hshows.startAtOnce call, h.perform (d := .startAtOnce call) hshows hm⟩
  | cancel k =>
    exact ⟨hshows.cancel (hplace k), h.perform (f := f) (d := .cancel (place k)) hshows trivial⟩
  | reset => exact ⟨hshows.reset, h.perform (f := f) (d := .reset) hshows trivial⟩
  | change g => exact ⟨hshows.changeWorld g, h.perform (f := f) (d := .change g) hshows trivial⟩
  | tick =>
    exact Shows.tick (fun _ hl => hl.takeTurn) (fun _ _ _ hl hpast _ ht => hl.idle hpast ht) hshows h

theorem Shows.makeAll {w : View} {v : EventLoop σ} (hshows : Shows w l v) (h : Quiet settings w l)
    {place : Nat → Nat} (hplace : ∀ k, w.caller? (place k) = some k) {ms : List (Move σ)}
    (hms : ∀ m ∈ ms, m.Shares) :
    Shows w (EventLoop.makeAll settings f place ms l) (EventLoop.makeAll settings f id ms v) := by
  induction ms generalizing l v with
  | nil => exact hshows
  | cons m ms ih =>
    obtain ⟨hnext, hquiet⟩ := hshows.make (f := f) h hplace (hms m List.mem_cons_self)
    exact ih hnext hquiet fun m' hm' => hms m' (List.mem_cons_of_mem m hm')

/-! ## The session starts anew -/

/-- What can be relied on when the session of this loop is reset. -/
structure Restarts (settings : Settings) (f : Fetcher σ) (l : EventLoop σ) : Prop where
  /-- However the run goes on, a build that was there at the reset touches neither the session nor
      the current build, be it on a turn of its own or when it is settled. -/
  inert : ∀ ds : List (Deed σ), (∀ d ∈ ds, d.Shares) → ∀ i rest, i < l.builds.length →
    (run settings f ds l.reset).queue = .build i :: rest ∨
      (run settings f ds l.reset).queue = .settle i :: rest →
    ((run settings f ds l.reset).takeTurn settings f).session =
        (run settings f ds l.reset).session ∧
      ((run settings f ds l.reset).takeTurn settings f).current =
        (run settings f ds l.reset).current
  /-- The moves that follow leave the same session as on a fresh one. -/
  same_session : ∀ ms : List (Move σ), (∀ m ∈ ms, m.Shares) →
    (makeAll settings f l.seat ms l.reset).session = (makeAll settings f id ms l.afresh).session
  /-- And whoever begins after the reset gets the same. -/
  same_outcomes : ∀ ms : List (Move σ), (∀ m ∈ ms, m.Shares) → ∀ k,
    ((makeAll settings f l.seat ms l.reset).callers[l.seat k]?).bind Caller.outcome? =
      ((makeAll settings f id ms l.afresh).callers[k]?).bind Caller.outcome?
  /-- If everybody has begun, the fresh session is one to which nobody has come yet. -/
  nobody_lined : (∀ c ∈ l.callers, c.stage ≠ .unstarted) → l.afresh = fresh l.session.world

/-- Whoever is out of sight after a reset needs nothing more. -/
theorem quiet_reset (horder : InOrder settings l) (hattended : Attended none l)
    (honce : AllCallers (fun _ c => c.stage ≠ .unstarted → c.outcome? = none →
      ∀ d, c.Wants d → d.size settings.param.toList = 1) l) :
    Quiet settings l.viewAfterReset l.reset := by
  refine ⟨horder.reset, ?_⟩
  intro i c hc hout
  rw [(reset_frame l).1] at hc
  have hlt := (List.getElem?_eq_some_iff.mp hc).1
  simp only [viewAfterReset, hlt, if_true] at hout
  refine ⟨fun hs => ?_, fun d hd => ?_⟩
  · -- else it would stand in line
    rcases hlive : c.cancelled with _ | _
    · have hnew : c = { call := c.call } := Caller.toBegin_iff.mp (by simp [Caller.toBegin, hs, hlive])
      have hmem : (i, c.call) ∈ l.lined :=
        mem_lined.mpr ⟨hattended.due i c (by simp) hc (.inl hs), hnew ▸ hc⟩
      have hin : i ∈ l.lined.map Prod.fst := List.mem_map.mpr ⟨_, hmem, rfl⟩
      exact absurd hin (List.idxOf?_eq_none_iff.mp hout)
    · rfl
  · refine honce i c hc ?_ ?_ d hd
    · rcases hd with ⟨b, hs⟩ | ⟨o, hs⟩ <;> simp [hs]
    · rcases hd with ⟨b, hs⟩ | ⟨o, hs⟩ <;> simp [Caller.outcome?, hs]

/-- **A reset starts the session anew**, after any run of shared deeds and at any point of a build,
    if the callers that have begun and not ended ask for the transform or for one value. -/
theorem reset_restarts (settings : Settings) (f : Fetcher σ) (world : σ) (ds : List (Deed σ))
    (hds : ∀ d ∈ ds, d.Shares)
    (hflight : ∀ c ∈ (run settings f ds (fresh world)).callers, c.stage ≠ .unstarted →
      c.outcome? = none → c.call.AsksOnce) :
    Restarts settings f (run settings f ds (fresh world)) := by
  have hfresh := inOrder_fresh settings world
  have horder : InOrder settings (run settings f ds (fresh world)) := run_inOrder hds hfresh
  have hattended : Attended none (run settings f ds (fresh world)) :=
    run_attended hds hfresh (attended_fresh world)
  have hlined : Lined (run settings f ds (fresh world)) := run_lined hds hfresh (lined_fresh world)
  have honce : AllCallers (fun _ c => c.call.AsksOnce → ∀ d, c.Wants d →
      d.size settings.param.toList = 1) (run settings f ds (fresh world)) :=
    run_allCallers (callerWise_once settings) (fun i call _ _ => by simp [Caller.Wants])
      (allCallers_fresh world)
  have hlive : LiveCurrent (run settings f ds (fresh world)) :=
    run_liveCurrent (liveCurrent_fresh world)
  -- from here on it does not matter how the loop was reached
  generalize run settings f ds (fresh world) = l at *
  have hshows := shows_reset hlined horder
  have hquiet : Quiet settings l.viewAfterReset l.reset :=
    quiet_reset horder hattended fun i c hc hs ho =>
      honce i c hc (hflight c (List.mem_of_getElem? hc) hs ho)
  have hseats := caller?_seat hlined
  refine ⟨?inert, ?same_session, ?same_outcomes, ?nobody_lined⟩
  case inert =>
    intro ds' hds' i rest hi hq
    exact dropped_inert (run_inOrder hds' horder.reset) (run_dropped (dropped_reset hlive)) hi hq
  case same_session =>
    intro ms hms
    exact (hshows.makeAll hquiet hseats hms).session
  case same_outcomes =>
    intro ms hms k
    exact (hshows.makeAll hquiet hseats hms).outcome? (hseats k)
  case nobody_lined =>
    intro hbegun
    have hnil : l.lined = [] := by
      refine List.eq_nil_iff_forall_not_mem.mpr fun ⟨i, call⟩ hmem => ?_
      exact hbegun _ (List.mem_of_getElem? (mem_lined.mp hmem).2) rfl
    rw [afresh, hnil]
    rfl

/-- Two callers share a build that is about to read the script; a third one has lined up. -/
def inFlight : List (Deed Pages) :=
  [.start (.decode "ab"), .start .transform, .turn, .turn, .turn, .turn, .start (.decode "cd")]

/-- After a reset in the middle of the build the third one fares as if it were alone. -/
theorem reset_restarts_inFlight :
    Restarts sampleSettings Pages.fetcher
        (run sampleSettings Pages.fetcher inFlight (fresh samplePages)) ∧
      (run sampleSettings Pages.fetcher inFlight (fresh samplePages)).lined =
        [(2, .decode "cd")] := by
  have hcalls : (run sampleSettings Pages.fetcher inFlight (fresh samplePages)).callers.map
      Caller.call = [.decode "ab", .transform, .decode "cd"] := by decide +kernel
  constructor
  · refine reset_restarts sampleSettings Pages.fetcher samplePages inFlight ?_ ?_
    · simp [inFlight, Deed.Shares]
    · intro c hc _ _
      have hcall := List.mem_map_of_mem (f := Caller.call) hc
      rw [hcalls] at hcall
      simp only [List.mem_cons, List.not_mem_nil, or_false] at hcall
      rcases hcall with hcall | hcall | hcall
      · exact .inr ⟨_, hcall⟩
      · exact .inl hcall
      · exact .inr ⟨_, hcall⟩
  · decide +kernel

end EventLoop

end StreamResolver.Cipher
