/-
  Configuration by environment variables.

  Each setting has a variable: the common start and the flat name of the setting, in any case.  The
  values are checked on their own, before they meet the other layers, so a problem here is reported
  under the flat name.
-/
import StreamResolver.Config.Basic
import StreamResolver.Text.LetterCase

namespace StreamResolver.Config

/-- The start of all names of variables, in lower case. -/
def variableStart : String := "invidiarr_"

/-- What a value must be to be accepted by a variable, and the value that it then gives. -/
def variableKinds : List (String × (Value → Except Refusal Value)) :=
  let text (v : Value) := (Setting.text v).map Value.str
  let number (v : Value) := (Setting.number v).map Value.float
  [("app_name", text),
   ("environment", fun v =>
      (Setting.oneOf Environment.all Environment.word v).map fun e => .str e.word),
   ("invidious_instance", text),
   ("invidious_timeout_seconds", number),
   ("http_user_agent", text),
   ("log_level", fun v => (Setting.oneOf Level.settable Level.word v).map fun l => .str l.word),
   ("log_format", fun v => (Setting.oneOf LogFormat.all LogFormat.word v).map fun f => .str f.word),
   ("cipher_watch_url", text),
   ("cipher_player_base_url", text),
   ("cipher_param", text),
   ("streams_probe_timeout_seconds", number),
   ("streams_allow_unvalidated_fallback", fun v => (Setting.truth v).map Value.bool),
   ("streams_related_limit", fun v => (Setting.integer v).map Value.int)]

/-- The variables by their names in lower case; of two that become the same the later one counts. -/
def lowerNames (env : Keyed String) : Keyed String :=
  Keyed.ofEntries (env.map fun (n, v) => (String.ofList (Text.lower n.toList), v))

/-- The problems and the values of a list of checks, in order. -/
def collect : List (Checked (String × Value)) → Checked (Keyed Value)
  | [] => .ok []
  | c :: rest => ((Checked.value List.cons).apply c).apply (collect rest)

/-- The layer that the environment variables give. -/
def variableLayer (env : Keyed String) : Checked (Keyed Value) :=
  let known := lowerNames env
  collect (variableKinds.filterMap fun (name, kind) =>
    (known.get? (variableStart ++ name)).map fun v =>
      match kind (.str v) with
      | .ok v => .ok (name, v)
      | .error r => .error [⟨[name], r⟩])

end StreamResolver.Config
