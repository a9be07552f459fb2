/-
  The same run over two worlds.

  A session only touches its world through its fetcher.  So when one world is a view of another, and
  the fetchers agree on the view (`Fetcher.Mirrors`), a run over the richer world looks like the run
  over the view (`run_mapWorld`).  This is what allows a run to be watched: a world may be given a
  notebook in which the fetcher writes down what it is asked, and nothing else in the run changes.
-/
import StreamResolver.Proofs.Cipher.Run

namespace StreamResolver.Cipher

variable {σ τ : Type}

/-- One fetcher does to a world what the other does to the view of it. -/
structure Fetcher.Mirrors (f' : Fetcher τ) (f : Fetcher σ) (view : τ → σ) : Prop where
  request : ∀ url w, view (f'.request url w) = f.request url (view w)
  deliver : ∀ url w, f.deliver url (view w) =
    ⟨(f'.deliver url w).result, view (f'.deliver url w).state, (f'.deliver url w).events⟩

namespace Session

/-- The session over the view of its world. -/
def mapWorld (view : τ → σ) (s : Session τ) : Session σ := ⟨s.cache, view s.world⟩

/-- One action does to a session what the other does to the session over the view. -/
def Mirrors {α : Type} (view : τ → σ) (p' : Action (Session τ) α) (p : Action (Session σ) α) :
    Prop :=
  ∀ s, p (s.mapWorld view) = ⟨(p' s).result, (p' s).state.mapWorld view, (p' s).events⟩

variable {view : τ → σ}

theorem mirrors_bind {α β : Type} {p' : Action (Session τ) α} {p : Action (Session σ) α}
    {q' : α → Action (Session τ) β} {q : α → Action (Session σ) β} (hp : Mirrors view p' p)
    (hq : ∀ a, Mirrors view (q' a) (q a)) : Mirrors view (p' >>= q') (p >>= q) := by
  intro s
  have hs := hp s
  rcases h : p' s with ⟨e | a, s', events⟩
  · rw [h] at hs
    rw [Action.bind_error hs, Action.bind_error h]
  · rw [h] at hs
    rw [Action.bind_ok hs, Action.bind_ok h, hq a s']

theorem mirrors_pure {α : Type} (a : α) :
    Mirrors view (pure a : Action (Session τ) α) (pure a) := fun _ => rfl

theorem mirrors_emit (level : Level) (name : String) (fields : Keyed Value) :
    Mirrors view (Action.emit level name fields) (Action.emit level name fields) := fun _ => rfl

theorem mirrors_ofReporting {α : Type} (p : Reporting Failure α) :
    Mirrors view (.ofReporting p) (.ofReporting p) := fun _ => rfl

theorem mirrors_cache (g : Cache → Cache) :
    Mirrors view (.modify fun s => { s with cache := g s.cache })
      (.modify fun s => { s with cache := g s.cache }) := fun _ => rfl

variable {f' : Fetcher τ} {f : Fetcher σ} (h : f'.Mirrors f view)
include h

theorem mirrors_request (url : String) :
    Mirrors view (onWorld (.modify (f'.request url))) (onWorld (.modify (f.request url))) := by
  intro s
  show (⟨.ok (), ⟨s.cache, f.request url (view s.world)⟩, []⟩ : Outcome (Session σ) Unit) = _
  rw [← h.request url s.world]
  rfl

theorem mirrors_deliver (url : String) :
    Mirrors view (onWorld (f'.deliver url)) (onWorld (f.deliver url)) := by
  intro s
  have hd := h.deliver url s.world
  rcases hd' : f'.deliver url s.world with ⟨r, w, events⟩
  rw [hd'] at hd
  rw [onWorld, onWorld, Action.onPart, Action.onPart]
  show (⟨(f.deliver url (view s.world)).result, ⟨s.cache, (f.deliver url (view s.world)).state⟩,
    (f.deliver url (view s.world)).events⟩ : Outcome (Session σ) String) = _
  rw [hd, hd']
  rfl

theorem mirrors_askForPage (settings : Settings) :
    Mirrors view (askForPage settings f') (askForPage settings f) :=
  mirrors_request h settings.watchUrl

theorem mirrors_askForSource (settings : Settings) :
    Mirrors view (askForSource settings f') (askForSource settings f) :=
  mirrors_bind (mirrors_deliver h settings.watchUrl) fun _ =>
    mirrors_bind (mirrors_ofReporting _) fun url =>
      mirrors_bind (mirrors_request h url) fun _ => mirrors_pure _

theorem mirrors_keepScript (url : String) :
    Mirrors view (keepScript f' url) (keepScript f url) :=
  mirrors_bind (mirrors_deliver h url) fun _ =>
    mirrors_bind (mirrors_cache fun c => c.withScript _) fun _ =>
      mirrors_bind (mirrors_emit _ _ _) fun _ => mirrors_pure _

omit h in
theorem mirrors_keepBuild (settings : Settings) (script : Script) :
    Mirrors view (keepBuild settings script) (keepBuild settings script) :=
  mirrors_bind (mirrors_ofReporting _) fun build =>
    mirrors_bind (mirrors_cache fun c => c.withBuild build) fun _ =>
      mirrors_bind (mirrors_emit _ _ _) fun _ => mirrors_pure _

omit h in
theorem mirrors_abandon (e : Failure) : Mirrors view (abandon e) (abandon e) := by
  cases e with
  | extractor e => exact mirrors_bind (mirrors_cache fun _ => {}) fun _ => mirrors_emit _ _ _
  | fault e => exact mirrors_bind (mirrors_cache fun _ => {}) fun _ => mirrors_pure _

theorem mirrors_resume (settings : Settings) (r : Reading) :
    Mirrors view (EventLoop.resume settings f' r) (EventLoop.resume settings f r) := by
  cases r with
  | page => exact mirrors_bind (mirrors_askForSource h settings) fun _ => mirrors_pure _
  | source url => exact mirrors_bind (mirrors_keepScript h url) fun _ => mirrors_pure _

end Session

/-- The deed seen in the view. -/
def Deed.Mirrors (view : τ → σ) : Deed τ → Deed σ → Prop
  | .start call', .start call | .startAtOnce call', .startAtOnce call => call' = call
  | .cancel i', .cancel i => i' = i
  | .reset, .reset | .turn, .turn => True
  | .change g', .change g => ∀ w, view (g' w) = g (view w)
  | _, _ => False

namespace EventLoop

variable {view : τ → σ} {f' : Fetcher τ} {f : Fetcher σ} {settings : Settings}

/-- The loop over the view of its world. -/
def mapWorld (view : τ → σ) (l : EventLoop τ) : EventLoop σ where
  session := l.session.mapWorld view
  events := l.events
  callers := l.callers
  builds := l.builds
  current := l.current
  queue := l.queue

theorem mapWorld_cache (l : EventLoop τ) : (l.mapWorld view).session.cache = l.session.cache := rfl

theorem mapWorld_callers (l : EventLoop τ) : (l.mapWorld view).callers = l.callers := rfl

theorem mapWorld_builds (l : EventLoop τ) : (l.mapWorld view).builds = l.builds := rfl

theorem mapWorld_current (l : EventLoop τ) : (l.mapWorld view).current = l.current := rfl

theorem mapWorld_queue (l : EventLoop τ) : (l.mapWorld view).queue = l.queue := rfl

theorem mapWorld_callerStage? (l : EventLoop τ) (i : Nat) :
    (l.mapWorld view).callerStage? i = l.callerStage? i := rfl

theorem mapWorld_available? (l : EventLoop τ) : (l.mapWorld view).available? = l.available? := rfl

theorem act_mapWorld {α : Type} {p' : Action (Session τ) α} {p : Action (Session σ) α}
    (hp : Session.Mirrors view p' p) (l : EventLoop τ) :
    (l.mapWorld view).act p = ((l.act p').1, (l.act p').2.mapWorld view) := by
  have hs := hp l.session
  show (_, { l.mapWorld view with
    session := (p (l.session.mapWorld view)).state
    events := l.events ++ (p (l.session.mapWorld view)).events }) = _
  rw [show (p (l.mapWorld view).session) = _ from hs, hs]
  rfl

theorem finishBuild_mapWorld (i : Nat) (script : Script) (l : EventLoop τ) :
    (l.mapWorld view).finishBuild settings i script =
      (l.finishBuild settings i script).mapWorld view := by
  unfold finishBuild
  rw [act_mapWorld (Session.mirrors_keepBuild settings script)]
  rcases l.act (Session.keepBuild settings script) with ⟨e | t, l'⟩
  · show ((l'.mapWorld view).act (Session.abandon e)).2.endBuild i _ = _
    rw [act_mapWorld (Session.mirrors_abandon e)]
    rfl
  · rfl

theorem settleTurn_mapWorld (i : Nat) (l : EventLoop τ) :
    (l.mapWorld view).settleTurn i = (l.settleTurn i).mapWorld view := by
  have hone : ∀ (o : Except Failure Transform) (j : Nat) (l : EventLoop τ),
      (l.mapWorld view).tellWaiter i o j = (l.tellWaiter i o j).mapWorld view := by
    intro o j l
    unfold tellWaiter
    rw [mapWorld_callerStage?]
    rcases l.callerStage? j with _ | _ | _ | ⟨b', d⟩ | _ | _ <;> try rfl
    show (if b' = i then _ else _) = (if b' = i then _ else _ : EventLoop τ).mapWorld view
    split <;> rfl
  have hfold : ∀ (o : Except Failure Transform) (js : List Nat) (l : EventLoop τ),
      js.foldl (tellWaiter i o) (l.mapWorld view) =
      (js.foldl (tellWaiter i o) l).mapWorld view := by
    intro o js
    induction js with
    | nil => intro l; rfl
    | cons j js ih => intro l; rw [List.foldl_cons, List.foldl_cons, hone, ih]
  unfold settleTurn
  rw [mapWorld_builds]
  cases l.builds[i]? with
  | none => rfl
  | some b =>
    simp only
    cases b.outcome? with
    | none => rfl
    | some o =>
      exact hfold o b.waiters
        { l with current := if l.current = some i then none else l.current }

theorem attend_mapWorld (i : Nat) (d : Demand) (l : EventLoop τ) :
    (l.mapWorld view).attend settings i d = (l.attend settings i d).mapWorld view := by
  unfold attend
  rw [mapWorld_available?]
  rcases l.available? with _ | e | t <;> try rfl
  show (l.mapWorld view).waitForBuild i d = (l.waitForBuild i d).mapWorld view
  unfold waitForBuild currentBuild
  rw [mapWorld_current]
  cases l.current <;> rfl

theorem cancel_mapWorld (i : Nat) (l : EventLoop τ) :
    (l.mapWorld view).cancel i = (l.cancel i).mapWorld view := by
  unfold cancel
  rw [mapWorld_callerStage?]
  rcases l.callerStage? i with _ | _ | _ | _ | _ | _ <;> rfl

theorem reset_mapWorld (l : EventLoop τ) :
    (l.mapWorld view).reset = l.reset.mapWorld view := by
  unfold reset
  rw [mapWorld_current]
  cases l.current <;> rfl

variable (h : f'.Mirrors f view)
include h

theorem buildTurn_mapWorld (i : Nat) (l : EventLoop τ) :
    (l.mapWorld view).buildTurn settings f i = (l.buildTurn settings f' i).mapWorld view := by
  unfold buildTurn
  rw [mapWorld_builds]
  cases l.builds[i]? with
  | none => rfl
  | some b =>
    rcases hs : b.stage with _ | r | o <;> rcases hc : b.cancelled <;> simp only [hs, hc]
    · rw [mapWorld_cache]
      cases l.session.cache.script with
      | some script => exact finishBuild_mapWorld i script l
      | none =>
        simp only [askForPage]
        rw [act_mapWorld (Session.mirrors_askForPage h settings)]
        rfl
    · rfl
    · rw [act_mapWorld (Session.mirrors_resume h settings r)]
      rcases l.act (resume settings f' r) with ⟨e | script | next, l'⟩
      · show ((l'.mapWorld view).act (Session.abandon e)).2.endBuild i _ = _
        rw [act_mapWorld (Session.mirrors_abandon e)]
        rfl
      · exact finishBuild_mapWorld i script l'
      · rfl
    · rw [act_mapWorld (Session.mirrors_abandon cancellation)]
      rfl

theorem startCall_mapWorld (i : Nat) (call : Call) (l : EventLoop τ) :
    (l.mapWorld view).startCall settings f i call =
      (l.startCall settings f' i call).mapWorld view := by
  cases call with
  | transform => exact attend_mapWorld i _ l
  | decode value => exact attend_mapWorld i _ l
  | decipher url =>
    simp only [startCall]
    rcases Deciphering.start settings.param url with e | s | d
    · rfl
    · rfl
    · exact attend_mapWorld i _ l
  | carriesCipher url => rfl
  | script =>
    simp only [startCall]
    rw [mapWorld_cache]
    cases l.session.cache.script with
    | some script => rfl
    | none =>
      simp only [askForPage]
      rw [act_mapWorld (Session.mirrors_askForPage h settings)]
      rfl

theorem callerTurn_mapWorld (i : Nat) (l : EventLoop τ) :
    (l.mapWorld view).callerTurn settings f i = (l.callerTurn settings f' i).mapWorld view := by
  unfold callerTurn
  rw [mapWorld_callers]
  cases l.callers[i]? with
  | none => rfl
  | some c =>
    rcases hs : c.stage with _ | r | ⟨b, d⟩ | ⟨d, e | t⟩ | o <;> rcases hc : c.cancelled <;>
      simp only [hs, hc] <;> try rfl
    · exact startCall_mapWorld h i c.call l
    · rw [act_mapWorld (Session.mirrors_resume h settings r)]
      rcases l.act (resume settings f' r) with ⟨e | script | next, l'⟩ <;> rfl
    · rcases d.advance settings.param.toList t with reply | d'
      · rfl
      · exact attend_mapWorld i d' l

theorem turn_mapWorld (t : Turn) (l : EventLoop τ) :
    (l.mapWorld view).turn settings f t = (l.turn settings f' t).mapWorld view := by
  cases t with
  | caller i => exact callerTurn_mapWorld h i l
  | build i => exact buildTurn_mapWorld h i l
  | settle i => exact settleTurn_mapWorld i l

theorem perform_mapWorld {d' : Deed τ} {d : Deed σ} (hd : d'.Mirrors view d) (l : EventLoop τ) :
    perform settings f (l.mapWorld view) d = (perform settings f' l d').mapWorld view := by
  cases d' <;> cases d <;> simp only [Deed.Mirrors] at hd
  case start.start => subst hd; rfl
  case startAtOnce.startAtOnce call' call =>
    subst hd
    exact callerTurn_mapWorld h l.callers.length
      { l with callers := l.callers ++ [({ call := call' } : Caller)] }
  case cancel.cancel i => subst hd; exact cancel_mapWorld _ l
  case reset.reset => exact reset_mapWorld l
  case change.change g' g =>
    show ({ l.mapWorld view with
      session := ⟨l.session.cache, g (view l.session.world)⟩ } : EventLoop σ) = _
    rw [← hd]
    rfl
  case turn.turn =>
    show takeTurn settings f (l.mapWorld view) = (takeTurn settings f' l).mapWorld view
    unfold takeTurn
    rw [mapWorld_queue]
    cases l.queue with
    | nil => rfl
    | cons t rest => exact turn_mapWorld h t { l with queue := rest }

/-- **Runs over two worlds**: what the run over the richer world makes of the view is the run over
    the view. -/
theorem run_mapWorld {lift : Deed σ → Deed τ} (hlift : ∀ d, (lift d).Mirrors view d)
    (ds : List (Deed σ)) (l : EventLoop τ) :
    run settings f ds (l.mapWorld view) = (run settings f' (ds.map lift) l).mapWorld view := by
  induction ds generalizing l with
  | nil => rfl
  | cons d ds ih => rw [List.map_cons, run_cons, run_cons, perform_mapWorld h (hlift d), ih]

end EventLoop

end StreamResolver.Cipher
