/-
  The journal: which events are written, where, and how.

  Events come from the program itself or from the libraries that it uses.  Each has a level and the name
  of the logger that it comes from; a logger lets through what is at least as serious as its bound.
  The bound is the same for all loggers but a few chatty ones, which are never set below a warning.

  What is let through is written as one line of fields: warnings and less to the output, errors and more
  to the error output.  An event of the program has the moment when it is written, one of a library the
  moment when it was made.
-/
import StreamResolver.Config.Basic
import StreamResolver.Log.Redaction
import StreamResolver.Log.Template
import StreamResolver.Log.Timestamp

namespace StreamResolver.Log

/-- A bound on levels. -/
inductive Bound where
  | atMost (rank : Int)
  | atLeast (rank : Int)
  deriving DecidableEq, Repr

/-- Whether a level is within a bound. -/
def Bound.passes : Bound → Int → Bool
  | .atMost bound, rank => rank ≤ bound
  | .atLeast bound, rank => bound ≤ rank

/-- What goes to the output. -/
def outputBound : Bound := .atMost Level.warning.rank

/-- What goes to the error output. -/
def errorBound : Bound := .atLeast Level.error.rank

/-- The chatty loggers. -/
def chattyLoggers : List String := ["httpcore", "httpx"]

/-- The logger under which the setting up of logging is reported. -/
def setupLogger : String := "invidiarr.infrastructure.logging.setup"

/-- A journal. -/
structure Journal where
  /-- The least serious level that loggers let through. -/
  rank : Int := Level.warning.rank
  /-- The same of the chatty loggers; zero leaves them as the others. -/
  chattyRank : Int := 0
  output : List (Keyed Value) := []
  errors : List (Keyed Value) := []
  deriving Repr

namespace Journal

/-- Whether a logger is chatty: its name, or the part of it before a point, is listed. -/
def isChatty (logger : String) : Bool :=
  chattyLoggers.any fun l =>
    l == logger || (l.toList ++ ['.']).isPrefixOf logger.toList

/-- The least serious level that a logger lets through. -/
def rankOf (j : Journal) (logger : String) : Int :=
  if isChatty logger && j.chattyRank != 0 then j.chattyRank else j.rank

/-- Write a line of a level. -/
def write (j : Journal) (rank : Int) (line : Keyed Value) : Journal :=
  { j with
    output := j.output ++ (if outputBound.passes rank then [line] else [])
    errors := j.errors ++ (if errorBound.passes rank then [line] else []) }

/-- Write a line if the logger that it comes from lets it through. -/
def enter (j : Journal) (logger : String) (level : Level) (line : Keyed Value) : Journal :=
  if j.rankOf logger ≤ level.rank then j.write level.rank line else j

/-- The fields that tell where a line comes from. -/
def origin (logger : String) (level : Level) (moment : String) (line : Keyed Value) : Keyed Value :=
  ((line.put "timestamp" (.str moment)).put "logger" (.str logger)).put "level" (.str level.name)

/-- Report an event of the program at a moment.  A note that an exception is under way is left out. -/
def report (j : Journal) (moment logger : String) (level : Level) (event : String)
    (fields : Keyed Value) : Journal :=
  let kept : Keyed Value := fields.filter (·.1 != "exc_info")
  let line := kept.put "event" (.str event)
  j.enter logger level (Redaction.maskFields (origin logger level moment line))

/-- Report an event of a library that was made at a moment; one without a text is dropped. -/
def reportForeign (j : Journal) (made : Number) (logger : String) (level : Level) (message : String)
    (args : List Value) : Journal :=
  match messageText? message args, timestamp made with
  | some text, .ok moment =>
    j.enter logger level (origin logger level moment [("event", .str text)])
  | _, _ => j

/-- Set logging up by a configuration, and report that. -/
def setUp (j : Journal) (moment : String) (c : Config) : Journal :=
  let rank := c.logLevel.rank
  { j with rank, chattyRank := max Level.warning.rank rank }.report moment setupLogger .info
    "logging_configured"
    [("log_format", .str c.logFormat.word), ("log_level", .str c.logLevel.word)]

end Journal

end StreamResolver.Log
