/-
  Runs of an event loop.

  Whatever happens to a session happens between two turns or as a turn: a caller starts or is
  cancelled, the session is reset, the pages change behind its back, or the foremost turn of the
  queue is taken.  A run is a list of such deeds in any order, so a statement about all runs is a
  statement about all interleavings.

  Nothing that a turn does looks at the turns behind it (`turn_behind`).  A tick, which gives
  everyone in the queue one turn, is therefore a run of that many single turns (`tick_eq_run`),
  and so is all that a driver of the loop does with ticks.
-/
import StreamResolver.Cipher.EventLoop
import StreamResolver.Cipher.Pages

namespace StreamResolver.Cipher

/-- Something that happens to an event loop. -/
inductive Deed (σ : Type) where
  /-- A caller lines up. -/
  | start (call : Call)
  /-- A caller has its first turn at once. -/
  | startAtOnce (call : Call)
  | cancel (i : Nat)
  | reset
  /-- The world changes: a page is replaced, a fetch is made to fail. -/
  | change (g : σ → σ)
  /-- The foremost turn is taken. -/
  | turn

/-- A deed by which no caller reads the script on its own account: the script is only read by
    builds. -/
def Deed.Shares {σ : Type} : Deed σ → Prop
  | .start call | .startAtOnce call => call ≠ .script
  | _ => True

namespace EventLoop

variable {σ : Type}

/-- The event loop of a session that nobody has used. -/
def fresh (world : σ) : EventLoop σ := { session := { world } }

/-- Let the foremost turn be taken. -/
def takeTurn (settings : Settings) (f : Fetcher σ) (l : EventLoop σ) : EventLoop σ :=
  match l.queue with
  | [] => l
  | t :: rest => turn settings f { l with queue := rest } t

/-- Change the world. -/
def changeWorld (g : σ → σ) (l : EventLoop σ) : EventLoop σ :=
  { l with session := { l.session with world := g l.session.world } }

/-- What a deed does. -/
def perform (settings : Settings) (f : Fetcher σ) (l : EventLoop σ) : Deed σ → EventLoop σ
  | .start call => l.start call
  | .startAtOnce call => l.startAtOnce settings f call
  | .cancel i => l.cancel i
  | .reset => l.reset
  | .change g => l.changeWorld g
  | .turn => l.takeTurn settings f

/-- Deeds one after another. -/
def run (settings : Settings) (f : Fetcher σ) (ds : List (Deed σ)) (l : EventLoop σ) :
    EventLoop σ :=
  ds.foldl (perform settings f) l

variable {settings : Settings} {f : Fetcher σ}

@[simp] theorem run_nil (l : EventLoop σ) : run settings f [] l = l := rfl

@[simp] theorem run_cons (d : Deed σ) (ds : List (Deed σ)) (l : EventLoop σ) :
    run settings f (d :: ds) l = run settings f ds (perform settings f l d) := rfl

theorem run_append (ds ds' : List (Deed σ)) (l : EventLoop σ) :
    run settings f (ds ++ ds') l = run settings f ds' (run settings f ds l) :=
  List.foldl_append

theorem perform_turn_nil {l : EventLoop σ} (hq : l.queue = []) :
    perform settings f l .turn = l := by
  simp [perform, takeTurn, hq]

theorem perform_turn_cons {l : EventLoop σ} {t : Turn} {rest : List Turn}
    (hq : l.queue = t :: rest) :
    perform settings f l .turn = turn settings f { l with queue := rest } t := by
  simp [perform, takeTurn, hq]

/-- **Step to run.**  What holds at the start and is kept by every deed of a run holds at its
    end. -/
theorem run_invariant {P : EventLoop σ → Prop} {Q : Deed σ → Prop} {ds : List (Deed σ)}
    (hstep : ∀ l d, P l → Q d → P (perform settings f l d)) (hds : ∀ d ∈ ds, Q d)
    {l : EventLoop σ} (hl : P l) : P (run settings f ds l) := by
  induction ds generalizing l with
  | nil => exact hl
  | cons d ds ih =>
    rw [run_cons]
    exact ih (fun e he => hds e (List.mem_cons_of_mem d he))
      (hstep l d hl (hds d List.mem_cons_self))

/-! ## A tick is a run of single turns -/

/-- The loop with some turns in front of all others. -/
def behind (ts : List Turn) (l : EventLoop σ) : EventLoop σ := { l with queue := ts ++ l.queue }

theorem behind_session (ts : List Turn) (l : EventLoop σ) : (l.behind ts).session = l.session := rfl

theorem behind_callers (ts : List Turn) (l : EventLoop σ) : (l.behind ts).callers = l.callers := rfl

theorem behind_builds (ts : List Turn) (l : EventLoop σ) : (l.behind ts).builds = l.builds := rfl

theorem behind_current (ts : List Turn) (l : EventLoop σ) : (l.behind ts).current = l.current := rfl

theorem behind_callerStage? (ts : List Turn) (l : EventLoop σ) (i : Nat) :
    (l.behind ts).callerStage? i = l.callerStage? i := rfl

theorem behind_available? (ts : List Turn) (l : EventLoop σ) :
    (l.behind ts).available? = l.available? := rfl

theorem enqueue_behind (ts : List Turn) (t : Turn) (l : EventLoop σ) :
    (l.behind ts).enqueue t = (l.enqueue t).behind ts := by
  simp [behind, enqueue]

theorem tell_behind (ts : List Turn) (i : Nat) (d : Demand) (o : Except Failure Transform)
    (l : EventLoop σ) : (l.behind ts).tell i d o = (l.tell i d o).behind ts :=
  enqueue_behind ts _ (l.setCaller i (.told d o))

theorem endBuild_behind (ts : List Turn) (i : Nat) (o : Except Failure Transform)
    (l : EventLoop σ) : (l.behind ts).endBuild i o = (l.endBuild i o).behind ts :=
  enqueue_behind ts _ (l.setBuild i (.ended o))

theorem act_behind {α : Type} (ts : List Turn) (p : Action (Session σ) α) (l : EventLoop σ) :
    (l.behind ts).act p = ((l.act p).1, (l.act p).2.behind ts) := rfl

theorem finishBuild_behind (ts : List Turn) (i : Nat) (script : Script) (l : EventLoop σ) :
    (l.behind ts).finishBuild settings i script = (l.finishBuild settings i script).behind ts := by
  unfold finishBuild
  rw [act_behind]
  rcases l.act (Session.keepBuild settings script) with ⟨e | t, l'⟩
  · show (((l'.behind ts).act (Session.abandon e)).2).endBuild i _ = _
    exact endBuild_behind ts i _ (l'.act (Session.abandon e)).2
  · exact endBuild_behind ts i _ l'

theorem buildTurn_behind (ts : List Turn) (i : Nat) (l : EventLoop σ) :
    (l.behind ts).buildTurn settings f i = (l.buildTurn settings f i).behind ts := by
  unfold buildTurn
  rw [behind_builds]
  cases l.builds[i]? with
  | none => rfl
  | some b =>
    rcases hs : b.stage with _ | r | o <;> rcases hc : b.cancelled <;> simp only [hs, hc]
    · rw [behind_session]
      cases l.session.cache.script with
      | some script => exact finishBuild_behind ts i script l
      | none => exact enqueue_behind ts _ ((l.askForPage settings f).setBuild i (.reading .page))
    · exact endBuild_behind ts i _ l
    · rw [act_behind]
      rcases l.act (resume settings f r) with ⟨e | script | next, l'⟩
      · exact endBuild_behind ts i _ (l'.act (Session.abandon e)).2
      · exact finishBuild_behind ts i script l'
      · exact enqueue_behind ts _ (l'.setBuild i (.reading next))
    · exact endBuild_behind ts i _ (l.act (Session.abandon cancellation)).2

theorem tellWaiter_behind (ts : List Turn) (b : Nat) (o : Except Failure Transform) (i : Nat)
    (l : EventLoop σ) : (l.behind ts).tellWaiter b o i = (l.tellWaiter b o i).behind ts := by
  unfold tellWaiter
  rw [behind_callerStage?]
  rcases l.callerStage? i with _ | _ | _ | ⟨b', d⟩ | _ | _ <;> try rfl
  show (if b' = b then _ else _) = (if b' = b then _ else _ : EventLoop σ).behind ts
  split
  · exact tell_behind ts i d o l
  · rfl

theorem settleTurn_behind (ts : List Turn) (i : Nat) (l : EventLoop σ) :
    (l.behind ts).settleTurn i = (l.settleTurn i).behind ts := by
  have hfold : ∀ (o : Except Failure Transform) (is : List Nat) (l : EventLoop σ),
      is.foldl (tellWaiter i o) (l.behind ts) = (is.foldl (tellWaiter i o) l).behind ts := by
    intro o is
    induction is with
    | nil => intro l; rfl
    | cons j is ih => intro l; rw [List.foldl_cons, List.foldl_cons, tellWaiter_behind, ih]
  unfold settleTurn
  rw [behind_builds]
  cases l.builds[i]? with
  | none => rfl
  | some b =>
    simp only
    cases b.outcome? with
    | none => rfl
    | some o =>
      exact hfold o b.waiters
        { l with current := if l.current = some i then none else l.current }

theorem currentBuild_behind (ts : List Turn) (l : EventLoop σ) :
    (l.behind ts).currentBuild = (l.currentBuild.1, l.currentBuild.2.behind ts) := by
  unfold currentBuild
  rw [behind_current]
  cases l.current with
  | some i => rfl
  | none => simp [behind, enqueue]

theorem attend_behind (ts : List Turn) (i : Nat) (d : Demand) (l : EventLoop σ) :
    (l.behind ts).attend settings i d = (l.attend settings i d).behind ts := by
  unfold attend
  rw [behind_available?]
  rcases l.available? with _ | e | t <;> try rfl
  show (l.behind ts).waitForBuild i d = (l.waitForBuild i d).behind ts
  rw [waitForBuild, currentBuild_behind]
  rfl

theorem startCall_behind (ts : List Turn) (i : Nat) (call : Call) (l : EventLoop σ) :
    (l.behind ts).startCall settings f i call = (l.startCall settings f i call).behind ts := by
  cases call with
  | transform => exact attend_behind ts i _ l
  | decode value => exact attend_behind ts i _ l
  | decipher url =>
    simp only [startCall]
    rcases Deciphering.start settings.param url with e | s | d
    · rfl
    · rfl
    · exact attend_behind ts i _ l
  | carriesCipher url => rfl
  | script =>
    simp only [startCall]
    rw [behind_session]
    cases l.session.cache.script with
    | some script => rfl
    | none => exact enqueue_behind ts _ ((l.askForPage settings f).setCaller i (.reading .page))

theorem callerTurn_behind (ts : List Turn) (i : Nat) (l : EventLoop σ) :
    (l.behind ts).callerTurn settings f i = (l.callerTurn settings f i).behind ts := by
  unfold callerTurn
  rw [behind_callers]
  cases l.callers[i]? with
  | none => rfl
  | some c =>
    rcases hs : c.stage with _ | r | ⟨b, d⟩ | ⟨d, e | t⟩ | o <;> rcases hc : c.cancelled <;>
      simp only [hs, hc] <;> try rfl
    · exact startCall_behind ts i c.call l
    · rw [act_behind]
      rcases l.act (resume settings f r) with ⟨e | script | next, l'⟩
      · rfl
      · rfl
      · exact enqueue_behind ts _ (l'.setCaller i (.reading next))
    · rcases d.advance settings.param.toList t with reply | d'
      · rfl
      · exact attend_behind ts i d' l

/-- A turn does not look at the turns that stand in the queue. -/
theorem turn_behind (ts : List Turn) (t : Turn) (l : EventLoop σ) :
    (l.behind ts).turn settings f t = (l.turn settings f t).behind ts := by
  cases t with
  | caller i => exact callerTurn_behind ts i l
  | build i => exact buildTurn_behind ts i l
  | settle i => exact settleTurn_behind ts i l

theorem foldl_turn_eq_run (ts : List Turn) (l : EventLoop σ) :
    ts.foldl (turn settings f) l =
      run settings f (List.replicate ts.length .turn) (l.behind ts) := by
  induction ts generalizing l with
  | nil => rfl
  | cons t ts ih =>
    have hturn : perform settings f (l.behind (t :: ts)) .turn = (l.turn settings f t).behind ts :=
      turn_behind ts t l
    rw [List.foldl_cons, ih, List.length_cons, List.replicate_succ, run_cons, hturn]

/-- **A tick is a run**: as many single turns as there are in the queue. -/
theorem tick_eq_run (l : EventLoop σ) :
    l.tick settings f = run settings f (List.replicate l.queue.length .turn) l := by
  have hbehind : behind l.queue { l with queue := [] } = l := by simp [behind]
  rw [tick, foldl_turn_eq_run, hbehind]

/-- What every turn keeps, a tick keeps. -/
theorem tick_invariant {P : EventLoop σ → Prop} (hP : ∀ l, P l → P (l.takeTurn settings f))
    {l : EventLoop σ} (h : P l) : P (l.tick settings f) := by
  rw [tick_eq_run]
  refine run_invariant (Q := fun d => d = .turn) (fun l d hl hd => ?_)
    (fun d hd => List.eq_of_mem_replicate hd) h
  rw [hd]
  exact hP l hl

theorem ticks_invariant {P : EventLoop σ → Prop} (hP : ∀ l, P l → P (l.takeTurn settings f))
    (n : Nat) {l : EventLoop σ} (h : P l) : P (l.ticks settings f n) := by
  induction n generalizing l with
  | zero => exact h
  | succ n ih => exact ih (tick_invariant hP h)

theorem ticks_add (m n : Nat) (l : EventLoop σ) :
    l.ticks settings f (m + n) = (l.ticks settings f m).ticks settings f n := by
  induction m generalizing l with
  | zero => rw [Nat.zero_add]; rfl
  | succ m ih =>
    rw [Nat.succ_add]
    exact ih (l.tick settings f)

theorem ticks_eq_run (settings : Settings) (f : Fetcher σ) (n : Nat) (l : EventLoop σ) :
    ∃ m, l.ticks settings f n = run settings f (List.replicate m .turn) l := by
  induction n generalizing l with
  | zero => exact ⟨0, rfl⟩
  | succ n ih =>
    obtain ⟨m, hm⟩ := ih (l.tick settings f)
    refine ⟨l.queue.length + m, ?_⟩
    rw [ticks, hm, tick_eq_run, ← run_append, List.replicate_append_replicate]

/-- Callers line up one after another. -/
def startAll (calls : List Call) (l : EventLoop σ) : EventLoop σ := calls.foldl start l

theorem startAll_eq (calls : List Call) (l : EventLoop σ) :
    l.startAll calls = { l with
      callers := l.callers ++ calls.map fun call => ({ call } : Caller)
      queue := l.queue ++ (List.range' l.callers.length calls.length).map .caller } := by
  induction calls generalizing l with
  | nil => simp [startAll]
  | cons call calls ih =>
    show (l.start call).startAll calls = _
    rw [ih]
    simp [start, enqueue, List.range'_succ, List.append_assoc]

/-! ## A small session to try runs on -/

deriving instance DecidableEq for Except

/-- A watch page that is the path of its script, and a script of one operation and one call. -/
def samplePages : Pages where
  texts := [("w", "/p"), ("https://h/p", "m:function(a){a.reverse()} H.m(a,1)")]

/-- Settings whose matchers find their way in the sample pages. -/
def sampleSettings : Settings where
  watchUrl := "w"
  playerBase := "https://h"
  patterns :=
    [(.playerScriptUrl, [{ template := "(/p)" }]),
     (.transformFunctionName, [{ template := "(H)" }]),
     (.functionBody, [{ template := "(H.m.a,1.)" }]), (.helperName, [{ template := "(H)" }]),
     (.helperBody, [{ template := "(m.*)" }])]

/-- The transform is built; then the session is reset, the pages are gone, and the next build is
    about to be refused the watch page. -/
def sampleDeeds : List (Deed Pages) :=
  .start .transform :: List.replicate 4 .turn ++
    [.reset, .change fun _ => {}, .start .transform, .turn, .turn, .turn, .turn]

theorem sampleDeeds_share : ∀ d ∈ sampleDeeds, d.Shares := by
  simp [sampleDeeds, Deed.Shares]

end EventLoop

end StreamResolver.Cipher
