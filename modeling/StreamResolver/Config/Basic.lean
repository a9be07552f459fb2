/-
  The configuration.

  `Config.read` checks an object and makes a configuration of it: a setting that is missing has its
  default, one that is given must be acceptable, and all problems are reported together.  A setting in a
  section may be given under its flat name too, which then wins.  `Config.sectionFields` writes a
  configuration as an object with sections, which reads back as the same configuration.

  The log format is the only setting whose default depends on another one: what runs in production is
  read by machines.
-/
import StreamResolver.Config.Layer
import StreamResolver.Config.Setting
import StreamResolver.Cipher.Session
import StreamResolver.Stream.Probe

namespace StreamResolver

/-- Where the program runs. -/
inductive Environment where
  | dev
  | test
  | prod
  deriving DecidableEq, Repr

/-- How log events are written. -/
inductive LogFormat where
  | json
  | console
  deriving DecidableEq, Repr

namespace Environment

def all : List Environment := [.dev, .test, .prod]

def word : Environment → String
  | .dev => "dev"
  | .test => "test"
  | .prod => "prod"

/-- The log format unless another one is chosen. -/
def logFormat : Environment → LogFormat
  | .prod => .json
  | _ => .console

end Environment

namespace LogFormat

def all : List LogFormat := [.json, .console]

def word : LogFormat → String
  | .json => "json"
  | .console => "console"

end LogFormat

namespace Level

/-- The levels that logging can be set to. -/
def settable : List Level := [.debug, .info, .warning, .error]

/-- The name of a level in capitals. -/
def word : Level → String
  | .debug => "DEBUG"
  | .info => "INFO"
  | .warning => "WARNING"
  | .error => "ERROR"
  | .critical => "CRITICAL"

end Level

/-- Where the player script is found, and what it deciphers. -/
structure CipherConfig where
  watchUrl : String := ({} : Cipher.Settings).watchUrl
  playerBase : String := ({} : Cipher.Settings).playerBase
  param : String := ({} : Cipher.Settings).param
  deriving DecidableEq, Repr

/-- How streams are chosen. -/
structure StreamConfig where
  /-- Seconds until a probe gives up. -/
  probeTimeout : Binary64 := .ofInt 5
  /-- Whether a stream is given out although no probe has reached it. -/
  allowUnvalidated : Bool := true
  /-- The number of related songs that are given at most. -/
  relatedLimit : Nat := 10
  deriving DecidableEq, Repr

/-- The configuration. -/
structure Config where
  appName : String := "invidiarr"
  environment : Environment := .dev
  /-- Host or URL of the instance that is asked. -/
  instanceName : String := "yewtu.be"
  /-- Seconds until reading from the instance gives up. -/
  timeout : Binary64 := .ofInt 10
  userAgent : String := Stream.defaultUserAgent
  logLevel : Level := .info
  logFormat : LogFormat := .console
  cipher : CipherConfig := {}
  streams : StreamConfig := {}
  deriving DecidableEq, Repr

namespace Config

/-! ## Writing -/

/-- The configuration as an object with sections. -/
def sectionFields (c : Config) : Keyed Value :=
  [("app_name", .str c.appName),
   ("environment", .str c.environment.word),
   ("invidious", .object [("instance", .str c.instanceName), ("timeout_seconds", .float c.timeout)]),
   ("http", .object [("user_agent", .str c.userAgent)]),
   ("logging", .object [("level", .str c.logLevel.word), ("format", .str c.logFormat.word)]),
   ("cipher", .object [("watch_url", .str c.cipher.watchUrl),
      ("player_base_url", .str c.cipher.playerBase), ("param", .str c.cipher.param)]),
   ("streams", .object [("probe_timeout_seconds", .float c.streams.probeTimeout),
      ("allow_unvalidated_fallback", .bool c.streams.allowUnvalidated),
      ("related_limit", .int c.streams.relatedLimit)])]

/-! ## Rules -/

/-- A number of seconds, which must be positive. -/
def positive (name : String) (v : Value) : Except Refusal Binary64 := do
  let x ← Setting.number v
  if x.atMostZero then .error (.breaksRule (name ++ " must be > 0")) else .ok x

/-- A number of things. -/
def count (name : String) (v : Value) : Except Refusal Nat := do
  let n ← Setting.integer v
  if n < 0 then .error (.breaksRule (name ++ " must be >= 0")) else .ok n.toNat

/-- The name of an instance, without the blanks around it; it is not empty. -/
def instanceText (v : Value) : Except Refusal String := do
  let s := Text.trim (← Setting.text v).toList
  if s.isEmpty then .error (.breaksRule "invidious_instance must not be empty")
  else .ok (String.ofList s)

/-- A log format, or null for the one of the environment. -/
def formatChoice : Value → Except Refusal (Option LogFormat)
  | .null => .ok none
  | v => (Setting.oneOf LogFormat.all LogFormat.word v).map some

/-! ## Reading -/

/-- A setting that was found, with its path. -/
abbrev Given := Option (List String × Value)

/-- A setting among the fields of an object at a path. -/
def givenIn (path : List String) (fields : Keyed Value) (key : String) : Given :=
  (fields.get? key).map (path ++ [key], ·)

/-- A setting under its flat name, or else in its section. -/
def givenAs (fields : Keyed Value) (flat heading key : String) : Given :=
  match fields.get? flat with
  | some v => some ([flat], v)
  | none => givenIn [heading] (fieldsAt fields heading) key

/-- Read a setting; one that is not given has its default. -/
def check {α : Type} (given : Given) (default : α) (read : Value → Except Refusal α) : Checked α :=
  match given with
  | none => .ok default
  | some (path, v) =>
    match read v with
    | .ok a => .ok a
    | .error r => .error [⟨path, r⟩]

/-- Read a group of settings, which is an object if it is given. -/
def checkGroup {α : Type} (fields : Keyed Value) (key group : String)
    (read : Keyed Value → Checked α) : Checked α :=
  match fields.get? key with
  | none => read []
  | some (.object inner) => read inner
  | some _ => .error [⟨[key], .notGroup group⟩]

/-- Read where the player script is found. -/
def readCipher (fields : Keyed Value) : Checked CipherConfig :=
  let d : CipherConfig := {}
  Checked.value CipherConfig.mk
    |>.apply (check (givenIn ["cipher"] fields "watch_url") d.watchUrl Setting.text)
    |>.apply (check (givenIn ["cipher"] fields "player_base_url") d.playerBase Setting.text)
    |>.apply (check (givenIn ["cipher"] fields "param") d.param Setting.text)

/-- Read how streams are chosen. -/
def readStreams (fields : Keyed Value) : Checked StreamConfig :=
  let d : StreamConfig := {}
  Checked.value StreamConfig.mk
    |>.apply (check (givenIn ["streams"] fields "probe_timeout_seconds") d.probeTimeout
      (positive "probe_timeout_seconds"))
    |>.apply (check (givenIn ["streams"] fields "allow_unvalidated_fallback") d.allowUnvalidated
      Setting.truth)
    |>.apply (check (givenIn ["streams"] fields "related_limit") d.relatedLimit
      (count "related_limit"))

/-- The configuration with the given settings; without a log format it has that of its environment. -/
def make (appName : String) (environment : Environment) (instanceName : String) (timeout : Binary64)
    (userAgent : String) (logLevel : Level) (logFormat : Option LogFormat) (cipher : CipherConfig)
    (streams : StreamConfig) : Config :=
  { appName, environment, instanceName, timeout, userAgent, logLevel,
    logFormat := logFormat.getD environment.logFormat, cipher, streams }

/-- Read a configuration from the fields of an object. -/
def readFields (fields : Keyed Value) : Checked Config :=
  let d : Config := {}
  Checked.value make
    |>.apply (check (givenIn [] fields "app_name") d.appName Setting.text)
    |>.apply (check (givenIn [] fields "environment") d.environment
      (Setting.oneOf Environment.all Environment.word))
    |>.apply (check (givenAs fields "invidious_instance" "invidious" "instance") d.instanceName
      instanceText)
    |>.apply (check (givenAs fields "invidious_timeout_seconds" "invidious" "timeout_seconds")
      d.timeout (positive "invidious_timeout_seconds"))
    |>.apply (check (givenAs fields "http_user_agent" "http" "user_agent") d.userAgent Setting.text)
    |>.apply (check (givenAs fields "log_level" "logging" "level") d.logLevel
      (Setting.oneOf Level.settable Level.word))
    |>.apply (check (givenAs fields "log_format" "logging" "format") none formatChoice)
    |>.apply (checkGroup fields "cipher" "CipherConfig" readCipher)
    |>.apply (checkGroup fields "streams" "StreamConfig" readStreams)

/-- Read a configuration. -/
def read : Value → Checked Config
  | .object fields => readFields fields
  | _ => .error [⟨[], .notGroup "AppConfig"⟩]

/-- What the player script session works with. -/
def cipherSettings (c : Config) : Cipher.Settings :=
  { watchUrl := c.cipher.watchUrl, playerBase := c.cipher.playerBase, param := c.cipher.param }

end Config

end StreamResolver
