/-
  The part of a loop that is seen.

  A loop may carry along what no longer matters to anybody: callers that will never have a wish
  again, builds that were dropped.  A `View` tells which callers are seen, and under which number,
  and how many of the first builds are out of sight.  One loop is what is seen of another
  (`Shows`) if session, current build, callers, builds and turns are the same once everything out
  of sight is left out and the rest is numbered anew.

  The crux is that a turn does not tell the two apart.  A turn that is seen does the same in both
  loops (`Shows.turn`), whatever it does.  A turn out of sight leaves the seen part alone as long
  as it is idle (`Idle`): no build is begun by it and no kept piece is touched.  So the seen loop
  takes just the turns that are seen, and a tick of one loop is a tick of the other
  (`Shows.tick`).
-/
import StreamResolver.Proofs.Cipher.Order

namespace StreamResolver.Cipher

/-! ## What is seen -/

/-- Which part of a loop is seen. -/
structure View where
  /-- The number under which a caller is seen, if it is seen. -/
  caller? : Nat → Option Nat
  /-- How many builds are out of sight: that many of the first ones. -/
  past : Nat
  caller_inj : ∀ {i i' j : Nat}, caller? i = some j → caller? i' = some j → i = i'

namespace View

/-- The number under which a build is seen. -/
def build? (w : View) (b : Nat) : Option Nat := if w.past ≤ b then some (b - w.past) else none

/-- The turn as it is seen. -/
def turn? (w : View) : Turn → Option Turn
  | .caller i => (w.caller? i).map .caller
  | .build b => (w.build? b).map .build
  | .settle b => (w.build? b).map .settle

/-- A build as it is seen: the callers out of sight do not wait for it. -/
def shared (w : View) (b : SharedBuild) : SharedBuild :=
  { b with waiters := b.waiters.filterMap w.caller? }

@[simp] theorem shared_stage (w : View) (b : SharedBuild) : (w.shared b).stage = b.stage := rfl

@[simp] theorem shared_cancelled (w : View) (b : SharedBuild) :
    (w.shared b).cancelled = b.cancelled := rfl

@[simp] theorem shared_outcome? (w : View) (b : SharedBuild) :
    (w.shared b).outcome? = b.outcome? := rfl

@[simp] theorem build?_past (w : View) (b : Nat) : w.build? (w.past + b) = some b := by
  simp [build?]

theorem build?_eq_some {w : View} {b b' : Nat} : w.build? b = some b' ↔ b = w.past + b' := by
  unfold build?
  split
  · simp only [Option.some.injEq]; omega
  · simp only [reduceCtorEq, false_iff]; omega

theorem build?_eq_none {w : View} {b : Nat} : w.build? b = none ↔ b < w.past := by
  unfold build?
  split
  · simp only [reduceCtorEq, false_iff]; omega
  · simp only [true_iff]; omega

end View

/-- The stage of a caller when there are `n` more builds before the others. -/
def CallerStage.shift (n : Nat) : CallerStage → CallerStage
  | .waiting b d => .waiting (n + b) d
  | s => s

/-- The caller when there are `n` more builds before the others. -/
def Caller.shift (n : Nat) (c : Caller) : Caller := { c with stage := c.stage.shift n }

@[simp] theorem CallerStage.shift_zero (s : CallerStage) : s.shift 0 = s := by
  cases s <;> simp [shift]

@[simp] theorem Caller.shift_zero (c : Caller) : c.shift 0 = c := by simp [shift]

@[simp] theorem Caller.shift_outcome? (n : Nat) (c : Caller) :
    (c.shift n).outcome? = c.outcome? := by
  rcases hs : c.stage with _ | r | ⟨b, d⟩ | ⟨d, o⟩ | r <;>
    simp [shift, outcome?, CallerStage.shift, hs]

namespace EventLoop

variable {σ : Type} {settings : Settings} {f : Fetcher σ} {w : View} {l v : EventLoop σ}

/-- The second loop is what is seen of the first. -/
structure Shows (w : View) (l v : EventLoop σ) : Prop where
  session : l.session = v.session
  current : l.current = v.current.map (w.past + ·)
  callers : ∀ i j, w.caller? i = some j →
    l.callers[i]? = (v.callers[j]?).map (Caller.shift w.past)
  /-- Whoever comes next is seen. -/
  newcomers : ∀ k, w.caller? (l.callers.length + k) = some (v.callers.length + k)
  builds : ∀ b, v.builds[b]? = (l.builds[w.past + b]?).map w.shared
  builds_length : l.builds.length = w.past + v.builds.length
  queue : l.queue.filterMap w.turn? = v.queue

namespace Shows

/-! ## Small changes -/

/-- The same becomes of both sessions; what is reported meanwhile does not matter. -/
theorem onSession (h : Shows w l v) (s : Session σ) (events events' : List Event) :
    Shows w { l with session := s, events } { v with session := s, events := events' } :=
  { h with session := rfl }

theorem act {α : Type} (h : Shows w l v) (p : Action (Session σ) α) :
    (l.act p).1 = (v.act p).1 ∧ Shows w (l.act p).2 (v.act p).2 := by
  unfold EventLoop.act
  rw [h.session]
  exact ⟨rfl, h.onSession _ _ _⟩

/-- A caller that is seen changes in both loops. -/
theorem modifyCaller (h : Shows w l v) {i j : Nat} (hij : w.caller? i = some j)
    {g g' : Caller → Caller} (hg : ∀ c, (g' c).shift w.past = g (c.shift w.past)) :
    Shows w { l with callers := l.callers.modify i g }
      { v with callers := v.callers.modify j g' } := by
  refine { h with callers := ?_, newcomers := ?_ }
  · intro i' j' hij'
    simp only [List.getElem?_modify, h.callers i' j' hij', Option.map_eq_map, Option.map_map]
    by_cases hi : i = i'
    · subst hi
      have hj : j = j' := Option.some.inj (hij.symm.trans hij')
      simp only [hj, if_true]
      congr 1
      exact funext fun c => (hg c).symm
    · have hj : j ≠ j' := by
        rintro rfl
        exact hi (w.caller_inj hij hij')
      simp only [hi, hj, if_false]
      rfl
  · intro k
    rw [List.length_modify, List.length_modify]
    exact h.newcomers k

theorem setCaller (h : Shows w l v) {i j : Nat} (hij : w.caller? i = some j)
    (s : CallerStage) : Shows w (l.setCaller i (s.shift w.past)) (v.setCaller j s) :=
  h.modifyCaller hij fun _ => rfl

/-- What becomes of a caller out of sight is not seen. -/
theorem modifyHidden (h : Shows w l v) {i : Nat} (hi : w.caller? i = none)
    (g : Caller → Caller) : Shows w { l with callers := l.callers.modify i g } v := by
  refine { h with callers := ?_, newcomers := ?_ }
  · intro i' j hij
    have hne : i ≠ i' := by
      rintro rfl
      rw [hi] at hij
      simp at hij
    rw [List.getElem?_modify_ne _ _ hne]
    exact h.callers i' j hij
  · intro k
    rw [List.length_modify]
    exact h.newcomers k

/-- A build that is seen changes in both loops. -/
theorem modifyBuild (h : Shows w l v) (b : Nat) {g g' : SharedBuild → SharedBuild}
    (hg : ∀ x, w.shared (g x) = g' (w.shared x)) :
    Shows w { l with builds := l.builds.modify (w.past + b) g }
      { v with builds := v.builds.modify b g' } := by
  refine { h with builds := ?_, builds_length := ?_ }
  · intro b'
    simp only [List.getElem?_modify, h.builds b', Option.map_eq_map, Option.map_map]
    by_cases hb : b = b'
    · simp only [hb, if_true]
      congr 1
      exact funext fun x => (hg x).symm
    · have hne : ¬ w.past + b = w.past + b' := by omega
      simp only [hb, hne, if_false]
      rfl
  · rw [List.length_modify, List.length_modify]
    exact h.builds_length

theorem setBuild (h : Shows w l v) (b : Nat) (s : BuildStage) :
    Shows w (l.setBuild (w.past + b) s) (v.setBuild b s) :=
  h.modifyBuild b fun _ => rfl

/-- What becomes of a build out of sight is not seen. -/
theorem modifyPast (h : Shows w l v) {b : Nat} (hb : b < w.past)
    (g : SharedBuild → SharedBuild) : Shows w { l with builds := l.builds.modify b g } v := by
  refine { h with builds := ?_, builds_length := ?_ }
  · intro b'
    have hne : b ≠ w.past + b' := by omega
    rw [List.getElem?_modify_ne _ _ hne]
    exact h.builds b'
  · rw [List.length_modify]
    exact h.builds_length

/-- A change of a build that is not seen, such as a caller out of sight that joins it. -/
theorem modifyUnseen (h : Shows w l v) (b : Nat) {g : SharedBuild → SharedBuild}
    (hg : ∀ x, w.shared (g x) = w.shared x) :
    Shows w { l with builds := l.builds.modify b g } v := by
  refine { h with builds := ?_, builds_length := ?_ }
  · intro b'
    rw [h.builds b', List.getElem?_modify]
    rcases l.builds[w.past + b']? with _ | x
    · rfl
    · by_cases hb : b = w.past + b'
      · simp [hb, hg x]
      · simp [hb]
  · rw [List.length_modify]
    exact h.builds_length

theorem enqueue (h : Shows w l v) {t t' : Turn} (ht : w.turn? t = some t') :
    Shows w (l.enqueue t) (v.enqueue t') :=
  { h with queue := by simp [EventLoop.enqueue, h.queue, ht] }

theorem enqueueHidden (h : Shows w l v) {t : Turn} (ht : w.turn? t = none) :
    Shows w (l.enqueue t) v :=
  { h with queue := by simp [EventLoop.enqueue, h.queue, ht] }

theorem endBuild (h : Shows w l v) (b : Nat) (o : Except Failure Transform) :
    Shows w (l.endBuild (w.past + b) o) (v.endBuild b o) :=
  (h.setBuild b (.ended o)).enqueue (by simp [View.turn?])

theorem endCaller (h : Shows w l v) {i j : Nat} (hij : w.caller? i = some j)
    (r : Except Failure Reply) : Shows w (l.endCaller i r) (v.endCaller j r) :=
  h.setCaller hij (.ended r)

theorem tell (h : Shows w l v) {i j : Nat} (hij : w.caller? i = some j) (d : Demand)
    (o : Except Failure Transform) : Shows w (l.tell i d o) (v.tell j d o) :=
  (h.setCaller hij (.told d o)).enqueue (by simp [View.turn?, hij])

theorem tellHidden (h : Shows w l v) {i : Nat} (hi : w.caller? i = none) (d : Demand)
    (o : Except Failure Transform) : Shows w (l.tell i d o) v :=
  (h.modifyHidden hi _).enqueueHidden (by simp [View.turn?, hi])

theorem callerStage? (h : Shows w l v) {i j : Nat} (hij : w.caller? i = some j) :
    l.callerStage? i = (v.callerStage? j).map (CallerStage.shift w.past) := by
  rw [EventLoop.callerStage?, h.callers i j hij, EventLoop.callerStage?, Option.map_map,
    Option.map_map]
  rfl

/-! ## Turns of builds -/

theorem finishBuild (h : Shows w l v) (b : Nat) (script : Script) :
    Shows w (l.finishBuild settings (w.past + b) script) (v.finishBuild settings b script) := by
  unfold EventLoop.finishBuild
  obtain ⟨hresult, hact⟩ := h.act (Session.keepBuild settings script)
  generalize l.act (Session.keepBuild settings script) = p at hresult hact
  generalize v.act (Session.keepBuild settings script) = q at hresult hact
  obtain ⟨r, l'⟩ := p
  obtain ⟨r', v'⟩ := q
  obtain rfl : r = r' := hresult
  cases r with
  | ok t => exact hact.endBuild b _
  | error e => exact (hact.act (Session.abandon e)).2.endBuild b _

theorem askForPage (h : Shows w l v) :
    Shows w (l.askForPage settings f) (v.askForPage settings f) :=
  (h.act (Session.askForPage settings f)).2

theorem buildTurn (h : Shows w l v) (b : Nat) :
    Shows w (l.buildTurn settings f (w.past + b)) (v.buildTurn settings f b) := by
  unfold EventLoop.buildTurn
  rw [h.builds b]
  rcases l.builds[w.past + b]? with _ | x
  · exact h
  simp only [Option.map_some, View.shared_stage, View.shared_cancelled]
  rcases x.stage with _ | r | o <;> rcases x.cancelled <;> simp only
  · -- it begins, with the script that is kept or by asking for one
    rw [h.session]
    cases v.session.cache.script with
    | some script => exact h.finishBuild b script
    | none => exact (h.askForPage.setBuild b _).enqueue (by simp [View.turn?])
  · exact h.endBuild b _
  · -- it takes the text that it asked for
    obtain ⟨hresult, hact⟩ := h.act (resume settings f r)
    generalize l.act (resume settings f r) = p at hresult hact
    generalize v.act (resume settings f r) = q at hresult hact
    obtain ⟨o, l'⟩ := p
    obtain ⟨o', v'⟩ := q
    obtain rfl : o = o' := hresult
    rcases o with e | script | next
    · exact (hact.act (Session.abandon e)).2.endBuild b _
    · exact hact.finishBuild b script
    · exact (hact.setBuild b _).enqueue (by simp [View.turn?])
  · exact (h.act (Session.abandon cancellation)).2.endBuild b _
  · exact h
  · exact h

theorem tellWaiter (h : Shows w l v) (b : Nat) (o : Except Failure Transform) {i j : Nat}
    (hij : w.caller? i = some j) :
    Shows w (l.tellWaiter (w.past + b) o i) (v.tellWaiter b o j) := by
  unfold EventLoop.tellWaiter
  rw [h.callerStage? hij]
  rcases v.callerStage? j with _ | _ | _ | ⟨b', d⟩ | _ | _ <;> try exact h
  simp only [Option.map_some, CallerStage.shift, Nat.add_left_cancel_iff]
  split
  · exact h.tell hij d o
  · exact h

theorem tellWaiterHidden (h : Shows w l v) (b : Nat) (o : Except Failure Transform) {i : Nat}
    (hi : w.caller? i = none) : Shows w (l.tellWaiter b o i) v := by
  unfold EventLoop.tellWaiter
  split
  · split
    · exact h.tellHidden hi _ o
    · exact h
  · exact h

/-- No caller that is seen waits for a build out of sight. -/
theorem tellWaiterPast (h : Shows w l v) {b : Nat} (hb : b < w.past)
    (o : Except Failure Transform) (i : Nat) : Shows w (l.tellWaiter b o i) v := by
  rcases hi : w.caller? i with _ | j
  · exact h.tellWaiterHidden b o hi
  unfold EventLoop.tellWaiter
  rw [h.callerStage? hi]
  rcases v.callerStage? j with _ | _ | _ | ⟨b', d⟩ | _ | _ <;> try exact h
  have hne : ¬ w.past + b' = b := by omega
  simpa only [Option.map_some, CallerStage.shift, hne, if_false] using h

theorem settleTurn (h : Shows w l v) (b : Nat) :
    Shows w (l.settleTurn (w.past + b)) (v.settleTurn b) := by
  have hall : ∀ (o : Except Failure Transform) (is : List Nat) (l v : EventLoop σ),
      Shows w l v → Shows w (is.foldl (EventLoop.tellWaiter (w.past + b) o) l)
        ((is.filterMap w.caller?).foldl (EventLoop.tellWaiter b o) v) := by
    intro o is
    induction is with
    | nil => intro l v h; exact h
    | cons i is ih =>
      intro l v h
      rw [List.foldl_cons]
      rcases hi : w.caller? i with _ | j
      · rw [List.filterMap_cons_none hi]
        exact ih _ _ (h.tellWaiterHidden _ o hi)
      · rw [List.filterMap_cons_some hi, List.foldl_cons]
        exact ih _ _ (h.tellWaiter b o hi)
  unfold EventLoop.settleTurn
  rw [h.builds b]
  rcases l.builds[w.past + b]? with _ | x
  · exact h
  simp only [Option.map_some, View.shared_outcome?]
  rcases x.outcome? with _ | o
  · exact h
  · -- the settled build is the current one for both or for neither
    refine hall o x.waiters _ _ { h with current := ?_ }
    rw [h.current]
    rcases v.current with _ | b'
    · simp
    · simp only [Option.map_some, Option.some.injEq, Nat.add_left_cancel_iff]
      split <;> rfl

/-- The settling of a build out of sight is not seen. -/
theorem settlePast (h : Shows w l v) {b : Nat} (hb : b < w.past) :
    Shows w (l.settleTurn b) v := by
  unfold EventLoop.settleTurn
  rcases l.builds[b]? with _ | x
  · exact h
  dsimp only
  rcases x.outcome? with _ | o
  · exact h
  · refine List.foldlRecOn x.waiters (EventLoop.tellWaiter b o) (motive := fun l => Shows w l v)
      { h with current := ?_ } fun _ h i _ => h.tellWaiterPast hb o i
    -- the current build is in sight
    have hne : l.current ≠ some b := by
      rw [h.current]
      intro heq
      obtain ⟨b', -, hb'⟩ := Option.map_eq_some_iff.mp heq
      omega
    rw [if_neg hne]
    exact h.current

/-! ## Turns of callers -/

theorem available? (h : Shows w l v) : l.available? = v.available? := by
  unfold EventLoop.available?
  rw [h.session, h.current]
  rcases v.session.cache.transform with _ | t
  · rcases v.current with _ | b
    · rfl
    · simp only [Option.map_some, Option.bind_some, h.builds b]
      cases l.builds[w.past + b]? <;> rfl
  · rfl

theorem waitForBuild (h : Shows w l v) {i j : Nat} (hij : w.caller? i = some j) (d : Demand) :
    Shows w (l.waitForBuild i d) (v.waitForBuild j d) := by
  have hcur := h.current
  rcases hv : v.current with _ | b <;> rw [hv] at hcur
  · -- a new build is begun, and it is seen
    rw [waitForBuild_fresh hcur, waitForBuild_fresh hv, h.builds_length]
    refine setCaller (s := .waiting v.builds.length d) ?_ hij
    refine { h with current := rfl, builds := ?_, builds_length := ?_, queue := ?_ }
    · intro b
      dsimp only
      rcases Nat.lt_trichotomy b v.builds.length with hlt | heq | hgt
      · rw [List.getElem?_append_left hlt, List.getElem?_append_left (by rw [h.builds_length]; omega)]
        exact h.builds b
      · subst heq
        rw [← h.builds_length]
        simp [View.shared, hij]
      · rw [List.getElem?_eq_none (by simp; omega),
          List.getElem?_eq_none (by simp [h.builds_length]; omega)]
        rfl
    · simp only [List.length_append, h.builds_length]
      exact Nat.add_assoc _ _ _
    · simp [View.turn?, h.queue]
  · rw [waitForBuild_current hcur, waitForBuild_current hv]
    exact (h.modifyBuild b fun x => by simp [View.shared, hij]).setCaller hij (.waiting b d)

theorem attend (h : Shows w l v) {i j : Nat} (hij : w.caller? i = some j) (d : Demand) :
    Shows w (l.attend settings i d) (v.attend settings j d) := by
  unfold EventLoop.attend
  rw [h.available?]
  rcases v.available? with _ | e | t
  · exact h.waitForBuild hij d
  · exact h.endCaller hij _
  · exact h.endCaller hij _

theorem startCall (h : Shows w l v) {i j : Nat} (hij : w.caller? i = some j) (call : Call) :
    Shows w (l.startCall settings f i call) (v.startCall settings f j call) := by
  cases call with
  | transform => exact h.attend hij _
  | decode value => exact h.attend hij _
  | decipher url =>
    simp only [EventLoop.startCall]
    rcases Deciphering.start settings.param url with e | s | d
    · exact h.endCaller hij _
    · exact h.endCaller hij _
    · exact h.attend hij _
  | carriesCipher url => exact h.endCaller hij _
  | script =>
    simp only [EventLoop.startCall]
    rw [h.session]
    cases v.session.cache.script with
    | some script => exact h.endCaller hij _
    | none =>
      exact (h.askForPage.setCaller hij (.reading .page)).enqueue (by simp [View.turn?, hij])

theorem callerTurn (h : Shows w l v) {i j : Nat} (hij : w.caller? i = some j) :
    Shows w (l.callerTurn settings f i) (v.callerTurn settings f j) := by
  unfold EventLoop.callerTurn
  rw [h.callers i j hij]
  rcases v.callers[j]? with _ | c
  · exact h
  simp only [Option.map_some, Caller.shift]
  rcases hs : c.stage with _ | r | ⟨b, d⟩ | ⟨d, e | t⟩ | o <;> rcases hc : c.cancelled <;>
    simp only [CallerStage.shift]
  · exact h.startCall hij c.call
  · exact h.endCaller hij _
  · obtain ⟨hresult, hact⟩ := h.act (resume settings f r)
    generalize l.act (resume settings f r) = p at hresult hact
    generalize v.act (resume settings f r) = q at hresult hact
    obtain ⟨o, l'⟩ := p
    obtain ⟨o', v'⟩ := q
    obtain rfl : o = o' := hresult
    rcases o with e | script | next
    · exact hact.endCaller hij _
    · exact hact.endCaller hij _
    · exact (hact.setCaller hij (.reading next)).enqueue (by simp [View.turn?, hij])
  · exact h.endCaller hij _
  · exact h
  · exact h
  · exact h.endCaller hij _
  · exact h.endCaller hij _
  · rcases d.advance settings.param.toList t with reply | d'
    · exact h.endCaller hij _
    · exact h.attend hij d'
  · exact h.endCaller hij _
  · exact h
  · exact h

/-! ## Turns out of sight -/

end Shows

/-- Whether a turn out of sight does nothing that is seen: a caller does not begin a build, and a
    build is dropped and finds nothing kept that it could clear. -/
def Idle (settings : Settings) (l : EventLoop σ) : Turn → Prop
  | .caller i => ∀ c, l.callers[i]? = some c → c.Shares ∧ ∀ d, c.Needs settings d →
      c.cancelled = false → l.available? = none → l.current ≠ none
  | .build i => ∀ b, l.builds[i]? = some b → b.outcome? = none →
      b.cancelled = true ∧ l.session.cache = {}
  | .settle _ => True

namespace Shows

/-- An idle turn of a caller out of sight: it ends, or it waits for a build that is there. -/
theorem callerHidden (h : Shows w l v) {i : Nat} (hi : w.caller? i = none)
    (hidle : Idle settings l (.caller i)) : Shows w (l.callerTurn settings f i) v := by
  rcases hc : l.callers[i]? with _ | c
  · simpa [EventLoop.callerTurn, hc] using h
  obtain ⟨hshares, hneeds⟩ := hidle c hc
  have hturn := callerTurn_cases settings f hc hshares
  generalize l.callerTurn settings f i = l' at hturn
  cases hturn with
  | rests _ => exact h
  | leaves r _ => exact h.modifyHidden hi _
  | waits d hd hlive hnone =>
    -- of the build that it joins only its name among the waiters is new, and that is not seen
    rcases hcur : l.current with _ | b
    · exact absurd hcur (hneeds d hd hlive hnone)
    · rw [waitForBuild_current hcur]
      exact (h.modifyUnseen b fun x => by simp [View.shared, hi]).modifyHidden hi _

/-- An idle turn of a build out of sight: it ends, and nothing is lost by it. -/
theorem buildPast (h : Shows w l v) {i : Nat} (hi : i < w.past)
    (hidle : Idle settings l (.build i)) : Shows w (l.buildTurn settings f i) v := by
  refine buildTurn_rule (P := fun l' => Shows w l' v) (fun _ => h) fun b l' hb ho hturn => ?_
  obtain ⟨hcancelled, hempty⟩ := hidle b hb ho
  have hsettle : w.turn? (.settle i) = none := by
    simp [View.turn?, View.build?_eq_none.mpr hi]
  obtain ⟨s, events, hs, rfl⟩ := hturn.of_cancelled hcancelled
  -- it keeps the session, or clears one that keeps nothing
  have hsession : s = v.session := by
    rcases hs with rfl | rfl
    · exact h.session
    · rw [← h.session, Session.clear, ← hempty]
  have hsame : Shows w { l with session := s, events } v := { h with session := hsession }
  exact (hsame.modifyPast hi _).enqueueHidden hsettle

/-- **A turn that is seen** does the same in both loops. -/
theorem turn (h : Shows w l v) {t t' : Turn} (ht : w.turn? t = some t') :
    Shows w (l.turn settings f t) (v.turn settings f t') := by
  cases t with
  | caller i =>
    obtain ⟨j, hij, rfl⟩ := Option.map_eq_some_iff.mp ht
    exact h.callerTurn hij
  | build b =>
    obtain ⟨b', hb, rfl⟩ := Option.map_eq_some_iff.mp ht
    rw [View.build?_eq_some.mp hb]
    exact h.buildTurn b'
  | settle b =>
    obtain ⟨b', hb, rfl⟩ := Option.map_eq_some_iff.mp ht
    rw [View.build?_eq_some.mp hb]
    exact h.settleTurn b'

/-- **An idle turn out of sight** is not seen. -/
theorem turnHidden (h : Shows w l v) {t : Turn} (ht : w.turn? t = none)
    (hidle : Idle settings l t) : Shows w (l.turn settings f t) v := by
  cases t with
  | caller i => exact h.callerHidden (Option.map_eq_none_iff.mp ht) hidle
  | build b => exact h.buildPast (View.build?_eq_none.mp (Option.map_eq_none_iff.mp ht)) hidle
  | settle b => exact h.settlePast (View.build?_eq_none.mp (Option.map_eq_none_iff.mp ht))

/-! ## Ticks -/

/-- The current build is in sight. -/
theorem past_le (h : Shows w l v) {b : Nat} (hb : l.current = some b) : w.past ≤ b := by
  rw [h.current] at hb
  obtain ⟨b', -, rfl⟩ := Option.map_eq_some_iff.mp hb
  exact Nat.le_add_right _ _

section Ticks

/-! `P` says why the turns out of sight are idle; every turn keeps it. -/

variable {P : EventLoop σ → Prop} (hP : ∀ l, P l → P (l.takeTurn settings f))
  (hidle : ∀ l t rest, P l → (∀ b, l.current = some b → w.past ≤ b) → l.queue = t :: rest →
    w.turn? t = none → Idle settings l t)
include hP hidle

theorem foldl_turn (ts : List Turn) {l v : EventLoop σ} (h : Shows w l v) (hl : P (l.behind ts)) :
    Shows w (ts.foldl (EventLoop.turn settings f) l)
        ((ts.filterMap w.turn?).foldl (EventLoop.turn settings f) v) ∧
      P (ts.foldl (EventLoop.turn settings f) l) := by
  induction ts generalizing l v with
  | nil => exact ⟨h, hl⟩
  | cons t ts ih =>
    have hnext : P ((l.turn settings f t).behind ts) := by
      rw [← turn_behind]
      exact hP _ hl
    rw [List.foldl_cons]
    rcases ht : w.turn? t with _ | t'
    · rw [List.filterMap_cons_none ht]
      have hquiet : Idle settings (l.behind (t :: ts)) t :=
        hidle _ t _ hl (fun b hb => h.past_le hb) rfl ht
      have hquiet' : Idle settings l t := by
        cases t <;> exact hquiet
      exact ih (h.turnHidden ht hquiet') hnext
    · rw [List.filterMap_cons_some ht, List.foldl_cons]
      exact ih (h.turn ht) hnext

/-- **A tick of one loop is a tick of the other.** -/
theorem tick (h : Shows w l v) (hl : P l) :
    Shows w (l.tick settings f) (v.tick settings f) ∧ P (l.tick settings f) := by
  have hpop : Shows w { l with queue := [] } { v with queue := [] } := { h with queue := rfl }
  have hbehind : P (behind l.queue { l with queue := [] }) := by simpa [behind] using hl
  unfold EventLoop.tick
  rw [← h.queue]
  exact foldl_turn hP hidle l.queue hpop hbehind

theorem ticks (n : Nat) {l v : EventLoop σ} (h : Shows w l v) (hl : P l) :
    Shows w (l.ticks settings f n) (v.ticks settings f n) ∧ P (l.ticks settings f n) := by
  induction n generalizing l v with
  | zero => exact ⟨h, hl⟩
  | succ n ih =>
    obtain ⟨hshows, hinv⟩ := tick hP hidle h hl
    exact ih hshows hinv

end Ticks

/-! ## What happens between turns -/

/-- Whoever comes is seen. -/
theorem newCaller (h : Shows w l v) (call : Call) :
    Shows w { l with callers := l.callers ++ [({ call } : Caller)] }
      { v with callers := v.callers ++ [({ call } : Caller)] } := by
  have hseat := h.newcomers 0
  simp only [Nat.add_zero] at hseat
  refine { h with callers := ?_, newcomers := ?_ }
  · intro i j hij
    rcases Nat.lt_trichotomy i l.callers.length with hlt | heq | hgt
    · have hj := h.callers i j hij
      rw [List.getElem?_append_left hlt, hj]
      rcases hv : v.callers[j]? with _ | c
      · rw [hv, List.getElem?_eq_getElem hlt] at hj
        simp at hj
      · rw [List.getElem?_append_left (List.getElem?_eq_some_iff.mp hv).1, hv]
    · subst heq
      obtain rfl := Option.some.inj (hij.symm.trans hseat)
      simp [Caller.shift, CallerStage.shift]
    · -- those who are still to come are nowhere yet
      obtain ⟨k, rfl⟩ := Nat.exists_eq_add_of_lt hgt
      have hk := h.newcomers (k + 1)
      rw [← Nat.add_assoc, hij, Option.some.injEq] at hk
      rw [List.getElem?_eq_none (by simp), List.getElem?_eq_none (by simp; omega)]
      rfl
  · intro k
    have hk := h.newcomers (1 + k)
    simpa [Nat.add_assoc] using hk

theorem start (h : Shows w l v) (call : Call) : Shows w (l.start call) (v.start call) := by
  have hseat := h.newcomers 0
  simp only [Nat.add_zero] at hseat
  exact (h.newCaller call).enqueue (by simp [View.turn?, hseat])

theorem startAtOnce (h : Shows w l v) (call : Call) :
    Shows w (l.startAtOnce settings f call) (v.startAtOnce settings f call) := by
  have hseat := h.newcomers 0
  simp only [Nat.add_zero] at hseat
  exact (h.newCaller call).callerTurn hseat

theorem cancel (h : Shows w l v) {i j : Nat} (hij : w.caller? i = some j) :
    Shows w (l.cancel i) (v.cancel j) := by
  unfold EventLoop.cancel
  rw [h.callerStage? hij]
  rcases v.callerStage? j with _ | _ | _ | ⟨b, d⟩ | _ | _ <;>
    simp only [Option.map_some, Option.map_none, CallerStage.shift]
  · exact h
  · exact h.modifyCaller hij fun _ => rfl
  · exact h.modifyCaller hij fun _ => rfl
  · exact h.tell hij d _
  · exact h.modifyCaller hij fun _ => rfl
  · exact h

/-- That a caller out of sight is cancelled is not seen. -/
theorem cancelHidden (h : Shows w l v) {i : Nat} (hi : w.caller? i = none) :
    Shows w (l.cancel i) v := by
  unfold EventLoop.cancel
  split
  · exact h
  · exact h
  · exact h.tellHidden hi _ _
  · exact h.modifyHidden hi _

theorem reset (h : Shows w l v) : Shows w l.reset v.reset := by
  have hclear : Shows w { l with current := none, session := l.session.clear }
      { v with current := none, session := v.session.clear } :=
    { h with session := by rw [h.session], current := rfl }
  have hcur := h.current
  unfold EventLoop.reset
  rcases hv : v.current with _ | b <;> rw [hv] at hcur <;> simp only [hcur, Option.map_none,
    Option.map_some]
  · exact hclear
  · refine hclear.modifyBuild b fun x => ?_
    rw [View.shared_outcome?]
    split <;> rfl

theorem changeWorld (h : Shows w l v) (g : σ → σ) : Shows w (l.changeWorld g) (v.changeWorld g) :=
  { h with session := by simp only [EventLoop.changeWorld, h.session] }

/-! ## What is reported to whoever looks -/

/-- The outcomes of those who are seen are the same. -/
theorem outcome? (h : Shows w l v) {i j : Nat} (hij : w.caller? i = some j) :
    (l.callers[i]?).bind Caller.outcome? = (v.callers[j]?).bind Caller.outcome? := by
  rw [h.callers i j hij]
  rcases v.callers[j]? with _ | c
  · rfl
  · simp

end Shows

end EventLoop

end StreamResolver.Cipher
