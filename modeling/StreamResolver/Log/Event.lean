/-
  Log events.

  An event has a level, a name and named fields in order.  Functions that report what they did
  return the events they emitted next to their result: `Reporting` carries the events in a state, so
  an event stays recorded when a later step fails.
-/
import StreamResolver.Value.Basic

namespace StreamResolver

/-- How serious an event is. -/
inductive Level where
  | debug
  | info
  | warning
  | error
  | critical
  deriving DecidableEq, Repr

namespace Level

/-- The numeric rank of a level. -/
def rank : Level → Int
  | .debug => 10
  | .info => 20
  | .warning => 30
  | .error => 40
  | .critical => 50

/-- The name of a level in lower case. -/
def name : Level → String
  | .debug => "debug"
  | .info => "info"
  | .warning => "warning"
  | .error => "error"
  | .critical => "critical"

/-- All levels, the least serious first. -/
def all : List Level := [.debug, .info, .warning, .error, .critical]

end Level

/-- Something that was reported. -/
structure Event where
  level : Level
  name : String
  fields : Keyed Value
  deriving BEq, Repr

/-- A computation that reports events, may fail with `ε`, and keeps the events when it fails. -/
abbrev Reporting (ε : Type) := ExceptT ε (StateM (List Event))

namespace Reporting

variable {ε α : Type}

/-- Report an event. -/
def emit (level : Level) (name : String) (fields : Keyed Value) : Reporting ε Unit :=
  modify fun events => events ++ [⟨level, name, fields⟩]

/-- The result and the events, in order. -/
def result (p : Reporting ε α) : Except ε α × List Event := p.run.run []

end Reporting

end StreamResolver
