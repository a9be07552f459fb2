/-
  Many callers over one session.

  Callers take turns.  Whoever has something to do stands in a queue, and a tick lets everyone who
  stands there at its start have one turn, in order; whoever has more to do lines up again behind.
  Waiting for a text costs exactly one turn.

  The first caller that needs the transform starts its build, and every other one that needs it while
  the build runs waits for the same build: the build is shared.  A caller can be cancelled without
  harm to the build.  A reset drops what is kept, cancels the build that runs and lets the next caller
  start a new one; a build that was dropped may still have turns, but it is no longer the current one.

  Three kinds of turn are queued:

    * a caller's turn: it starts, goes on reading the script, or takes the outcome of its build;
    * a build's turn: it starts or goes on reading the script, and in the end builds the transform;
    * the settling of a build that has ended: it is no longer the current one, and each caller that
      waits for it is told its outcome.

  Callers that come between the end of a build and its settling find it still current and share its
  outcome.
-/
import StreamResolver.Cipher.Session

namespace StreamResolver.Cipher

/-! ## Callers and builds -/

/-- What a caller asks of a session. -/
inductive Call where
  | script
  | transform
  | decode (value : String)
  | decipher (url : String)
  | carriesCipher (url : String)
  deriving DecidableEq, Repr

/-- What a caller gets. -/
inductive Reply where
  | script (s : Script)
  | transform (t : Transform)
  | text (s : String)
  | flag (b : Bool)
  deriving DecidableEq, Repr

/-- What a caller needs the transform for. -/
inductive Demand where
  | transform
  | decode (value : String)
  | decipher (d : Deciphering)
  deriving DecidableEq, Repr

namespace Demand

/-- The reply, when the transform is known from now on. -/
def complete (param : List Char) (t : Transform) : Demand → Reply
  | .transform => .transform t
  | .decode value => .text (t.apply value)
  | .decipher d => .text (d.complete param t)

/-- The reply, or what is still needed when the transform was known for one moment. -/
def advance (param : List Char) (t : Transform) : Demand → Reply ⊕ Demand
  | .transform => .inl (.transform t)
  | .decode value => .inl (.text (t.apply value))
  | .decipher d =>
    match d.advance param t with
    | .inl url => .inl (.text url)
    | .inr d => .inr (.decipher d)

end Demand

/-- How far the script is read: a text is asked for that will be there on the next turn. -/
inductive Reading where
  | page
  | source (url : String)
  deriving DecidableEq, Repr

/-- How far a build is. -/
inductive BuildStage where
  | unstarted
  | reading (r : Reading)
  | ended (outcome : Except Failure Transform)

/-- A build of the transform. -/
structure SharedBuild where
  stage : BuildStage := .unstarted
  /-- Whether it is to be cancelled on its next turn. -/
  cancelled : Bool := false
  /-- The callers that wait for it, in the order in which they came. -/
  waiters : List Nat := []

/-- Whether a build has ended. -/
def SharedBuild.outcome? (b : SharedBuild) : Option (Except Failure Transform) :=
  match b.stage with
  | .ended outcome => some outcome
  | _ => none

/-- How far a caller is. -/
inductive CallerStage where
  | unstarted
  | reading (r : Reading)
  /-- It waits for the build with the given number. -/
  | waiting (build : Nat) (demand : Demand)
  /-- It was told an outcome and takes it on its next turn. -/
  | told (demand : Demand) (outcome : Except Failure Transform)
  | ended (outcome : Except Failure Reply)

/-- A caller. -/
structure Caller where
  call : Call
  stage : CallerStage := .unstarted
  /-- Whether it is to be cancelled on its next turn. -/
  cancelled : Bool := false

/-- The outcome of a caller that has ended. -/
def Caller.outcome? (c : Caller) : Option (Except Failure Reply) :=
  match c.stage with
  | .ended outcome => some outcome
  | _ => none

/-- Something that waits for its turn. -/
inductive Turn where
  | caller (i : Nat)
  | build (i : Nat)
  | settle (i : Nat)
  deriving DecidableEq, Repr

/-- A session with its callers and builds. -/
structure EventLoop (σ : Type) where
  session : Session σ
  /-- The events reported so far. -/
  events : List Event := []
  callers : List Caller := []
  builds : List SharedBuild := []
  /-- The build that new callers share. -/
  current : Option Nat := none
  queue : List Turn := []

namespace EventLoop

variable {σ : Type}

/-- The failure of whoever is cancelled. -/
def cancellation : Failure := .fault .cancelled

/-! ## Bookkeeping -/

/-- Let an action change the session. -/
def act {α : Type} (p : Action (Session σ) α) (l : EventLoop σ) : Except Failure α × EventLoop σ :=
  let o := p l.session
  (o.result, { l with session := o.state, events := l.events ++ o.events })

/-- Put a turn at the end of the queue. -/
def enqueue (t : Turn) (l : EventLoop σ) : EventLoop σ := { l with queue := l.queue ++ [t] }

/-- How far a caller is. -/
def callerStage? (l : EventLoop σ) (i : Nat) : Option CallerStage :=
  (l.callers[i]?).map (·.stage)

/-- Change how far a caller is. -/
def setCaller (i : Nat) (stage : CallerStage) (l : EventLoop σ) : EventLoop σ :=
  { l with callers := l.callers.modify i fun c => { c with stage } }

/-- Change how far a build is. -/
def setBuild (i : Nat) (stage : BuildStage) (l : EventLoop σ) : EventLoop σ :=
  { l with builds := l.builds.modify i fun b => { b with stage } }

/-- End a caller. -/
def endCaller (i : Nat) (outcome : Except Failure Reply) (l : EventLoop σ) : EventLoop σ :=
  l.setCaller i (.ended outcome)

/-- End a build; it is settled on a later turn. -/
def endBuild (i : Nat) (outcome : Except Failure Transform) (l : EventLoop σ) : EventLoop σ :=
  (l.setBuild i (.ended outcome)).enqueue (.settle i)

/-- Tell a caller the outcome of its build. -/
def tell (i : Nat) (demand : Demand) (outcome : Except Failure Transform) (l : EventLoop σ) :
    EventLoop σ :=
  (l.setCaller i (.told demand outcome)).enqueue (.caller i)

/-! ## Reading the script -/

/-- Ask for the watch page. -/
def askForPage (settings : Settings) (f : Fetcher σ) (l : EventLoop σ) : EventLoop σ :=
  (l.act (Session.askForPage settings f)).2

/-- Take what was asked for: the script, or what is asked for next. -/
def resume (settings : Settings) (f : Fetcher σ) : Reading → Action (Session σ) (Script ⊕ Reading)
  | .page => do return .inr (.source (← Session.askForSource settings f))
  | .source url => do return .inl (← Session.keepScript f url)

/-! ## A build's turns -/

/-- Build the transform from the script and end the build. -/
def finishBuild (settings : Settings) (i : Nat) (script : Script) (l : EventLoop σ) : EventLoop σ :=
  match l.act (Session.keepBuild settings script) with
  | (.ok t, l) => l.endBuild i (.ok t)
  | (.error e, l) => (l.act (Session.abandon e)).2.endBuild i (.error e)

/-- A turn of a build. -/
def buildTurn (settings : Settings) (f : Fetcher σ) (i : Nat) (l : EventLoop σ) : EventLoop σ :=
  match l.builds[i]? with
  | none => l
  | some b =>
    match b.stage, b.cancelled with
    | .ended _, _ => l
    | .unstarted, true => l.endBuild i (.error cancellation)
    | .reading _, true =>
      (l.act (Session.abandon cancellation)).2.endBuild i (.error cancellation)
    | .unstarted, false =>
      match l.session.cache.script with
      | some script => l.finishBuild settings i script
      | none => ((l.askForPage settings f).setBuild i (.reading .page)).enqueue (.build i)
    | .reading r, false =>
      match l.act (resume settings f r) with
      | (.ok (.inl script), l) => l.finishBuild settings i script
      | (.ok (.inr next), l) => (l.setBuild i (.reading next)).enqueue (.build i)
      | (.error e, l) => (l.act (Session.abandon e)).2.endBuild i (.error e)

/-- Tell a caller the outcome if it still waits for the build. -/
def tellWaiter (build : Nat) (outcome : Except Failure Transform) (l : EventLoop σ) (i : Nat) :
    EventLoop σ :=
  match l.callerStage? i with
  | some (.waiting b demand) => if b = build then l.tell i demand outcome else l
  | _ => l

/-- Settle a build that has ended. -/
def settleTurn (i : Nat) (l : EventLoop σ) : EventLoop σ :=
  match l.builds[i]? with
  | none => l
  | some b =>
    match b.outcome? with
    | none => l
    | some outcome =>
      b.waiters.foldl (tellWaiter i outcome)
        { l with current := if l.current = some i then none else l.current }

/-! ## A caller's turns -/

/-- The outcome that a caller gets without waiting: the transform that is kept, or the outcome of the
    current build if it has ended. -/
def available? (l : EventLoop σ) : Option (Except Failure Transform) :=
  match l.session.cache.transform with
  | some kept => some (.ok kept)
  | none => (l.current.bind fun i => l.builds[i]?).bind SharedBuild.outcome?

/-- The current build, a new one if there is none. -/
def currentBuild (l : EventLoop σ) : Nat × EventLoop σ :=
  match l.current with
  | some i => (i, l)
  | none =>
    let i := l.builds.length
    let fresh : SharedBuild := {}
    (i, { l with builds := l.builds ++ [fresh], current := some i }.enqueue (.build i))

/-- Let a caller wait for the current build. -/
def waitForBuild (i : Nat) (demand : Demand) (l : EventLoop σ) : EventLoop σ :=
  let (b, l) := l.currentBuild
  { l with builds := l.builds.modify b fun build =>
      { build with waiters := build.waiters ++ [i] } }.setCaller i (.waiting b demand)

/-- A caller needs the transform. -/
def attend (settings : Settings) (i : Nat) (demand : Demand) (l : EventLoop σ) : EventLoop σ :=
  match l.available? with
  | some (.ok t) => l.endCaller i (.ok (demand.complete settings.param.toList t))
  | some (.error e) => l.endCaller i (.error e)
  | none => l.waitForBuild i demand

/-- The first turn of a caller. -/
def startCall (settings : Settings) (f : Fetcher σ) (i : Nat) (l : EventLoop σ) :
    Call → EventLoop σ
  | .transform => l.attend settings i .transform
  | .decode value => l.attend settings i (.decode value)
  | .decipher url =>
    match Deciphering.start settings.param url with
    | .error e => l.endCaller i (.error (.fault e))
    | .ok (.inl deciphered) => l.endCaller i (.ok (.text deciphered))
    | .ok (.inr d) => l.attend settings i (.decipher d)
  | .carriesCipher url =>
    l.endCaller i (((carriesCipher settings.param url).map Reply.flag).mapError Failure.fault)
  | .script =>
    match l.session.cache.script with
    | some script => l.endCaller i (.ok (.script script))
    | none => ((l.askForPage settings f).setCaller i (.reading .page)).enqueue (.caller i)

/-- A turn of a caller. -/
def callerTurn (settings : Settings) (f : Fetcher σ) (i : Nat) (l : EventLoop σ) : EventLoop σ :=
  match l.callers[i]? with
  | none => l
  | some c =>
    match c.stage, c.cancelled with
    | .ended _, _ => l
    | .waiting .., _ => l
    | _, true => l.endCaller i (.error cancellation)
    | .unstarted, false => l.startCall settings f i c.call
    | .reading r, false =>
      match l.act (resume settings f r) with
      | (.ok (.inl script), l) => l.endCaller i (.ok (.script script))
      | (.ok (.inr next), l) => (l.setCaller i (.reading next)).enqueue (.caller i)
      | (.error e, l) => l.endCaller i (.error e)
    | .told _ (.error e), false => l.endCaller i (.error e)
    | .told demand (.ok t), false =>
      match demand.advance settings.param.toList t with
      | .inl reply => l.endCaller i (.ok reply)
      | .inr demand => l.attend settings i demand

/-! ## Turns, ticks, and what happens between them -/

/-- One turn. -/
def turn (settings : Settings) (f : Fetcher σ) (l : EventLoop σ) : Turn → EventLoop σ
  | .caller i => l.callerTurn settings f i
  | .build i => l.buildTurn settings f i
  | .settle i => l.settleTurn i

/-- One turn for everyone who stands in the queue. -/
def tick (settings : Settings) (f : Fetcher σ) (l : EventLoop σ) : EventLoop σ :=
  l.queue.foldl (turn settings f) { l with queue := [] }

/-- So many ticks. -/
def ticks (settings : Settings) (f : Fetcher σ) : Nat → EventLoop σ → EventLoop σ
  | 0, l => l
  | n + 1, l => ticks settings f n (l.tick settings f)

/-- Let a new caller line up. -/
def start (l : EventLoop σ) (call : Call) : EventLoop σ :=
  let caller : Caller := { call }
  { l with callers := l.callers ++ [caller] }.enqueue (.caller l.callers.length)

/-- Cancel a caller.  One that waits stops waiting; one that has a turn anyway ends on it. -/
def cancel (i : Nat) (l : EventLoop σ) : EventLoop σ :=
  match l.callerStage? i with
  | none | some (.ended _) => l
  | some (.waiting _ demand) => l.tell i demand (.error cancellation)
  | some _ => { l with callers := l.callers.modify i fun c => { c with cancelled := true } }

/-- Cancel a build that has not ended. -/
def cancelBuild (i : Nat) (l : EventLoop σ) : EventLoop σ :=
  { l with builds := l.builds.modify i fun b =>
      if b.outcome?.isSome then b else { b with cancelled := true } }

/-- Drop what is kept and the current build. -/
def reset (l : EventLoop σ) : EventLoop σ :=
  let l := match l.current with
    | some i => l.cancelBuild i
    | none => l
  { l with current := none, session := l.session.clear }

/-- Let a new caller have its first turn at once, before everyone who stands in the queue. -/
def startAtOnce (settings : Settings) (f : Fetcher σ) (call : Call) (l : EventLoop σ) : EventLoop σ :=
  let caller : Caller := { call }
  { l with callers := l.callers ++ [caller] }.callerTurn settings f l.callers.length

/-! ## Until every caller has ended -/

/-- Whether every caller has ended. -/
def allEnded (l : EventLoop σ) : Bool := l.callers.all fun c => c.outcome?.isSome

/-- How often a call can need the transform. -/
def Call.demands : Call → Nat
  | .decipher url => url.length
  | _ => 1

/-- A number of ticks after which nobody has anything left to do: a build takes at most six ticks from
    the demand for it to the reply, and every demand starts at most one. -/
def patience (l : EventLoop σ) : Nat :=
  8 * l.callers.foldl (fun n c => n + 1 + Call.demands c.call) (2 + l.builds.length)

/-- Ticks until every caller has ended, at most so many. -/
def settleWithin (settings : Settings) (f : Fetcher σ) : Nat → EventLoop σ → EventLoop σ
  | 0, l => l
  | n + 1, l => if l.allEnded then l else settleWithin settings f n (l.tick settings f)

/-- Ticks until every caller has ended. -/
def settle (settings : Settings) (f : Fetcher σ) (l : EventLoop σ) : EventLoop σ :=
  settleWithin settings f l.patience l

/-- Ticks until whoever started the callers together knows that all have ended: the last one reports
    its end on the next tick, and the report is taken on the one after. -/
def gather (settings : Settings) (f : Fetcher σ) (l : EventLoop σ) : EventLoop σ :=
  ticks settings f 2 (settle settings f l)

end EventLoop

end StreamResolver.Cipher
