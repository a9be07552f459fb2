/-
  Loading the configuration.

  The layers are, from the lowest to the highest: the defaults, a file, the environment variables, and
  what the caller sets.  A variable file adds to the environment variables before they are looked at,
  so it may also name the file.  The first thing that fails ends the loading.
-/
import StreamResolver.Config.Variables
import StreamResolver.Config.Dotenv
import StreamResolver.Yaml.Datum

namespace StreamResolver.Config

/-- The variable that names the configuration file. -/
def pathVariable : String := "INVIDIARR_CONFIG"

/-- What a configuration is loaded from. -/
structure Sources where
  /-- The environment variables, in order. -/
  env : Keyed String := []
  /-- The path of the configuration file, if the caller names one. -/
  path : Option String := none
  /-- The path of the variable file, if there is one. -/
  variablePath : Option String := none
  /-- What the caller sets. -/
  overrides : Keyed Value := []
  /-- The texts of the files, by path. -/
  files : Keyed String := []

/-- Why a configuration cannot be loaded. -/
inductive LoadError where
  | missingFile (path : String)
  /-- The file is no YAML text, or holds a value that cannot be read. -/
  | badFile (e : Yaml.Error)
  /-- The file holds something else than a mapping. -/
  | notMapping (kind : String)
  | badVariables (problems : List Problem)
  | badSettings (problems : List Problem)
  deriving DecidableEq, Repr

/-- The wording for a file that holds no mapping. -/
def notMappingMessage (kind : String) : String :=
  "Config YAML must be a mapping, got: <class '" ++ kind ++ "'>"

/-- The text of a file. -/
def fileText (s : Sources) (path : String) : Except LoadError (List Char) :=
  match s.files.get? path with
  | some text => .ok text.toList
  | none => .error (.missingFile path)

/-- The fields that a document gives; an empty one gives none. -/
def documentFields : Yaml.Datum → Except LoadError (Keyed Value)
  | .null => .ok []
  | d =>
    match d.toValue with
    | .object fields => .ok fields
    | _ => .error (.notMapping d.kindName)

/-- The fields that a configuration file gives. -/
def fileFields (text : List Char) : Except LoadError (Keyed Value) :=
  match Yaml.Datum.ofText (Text.unifyLineEnds text) with
  | .ok d => documentFields d
  | .error e => .error (.badFile e)

/-- The environment variables, with those of the variable file. -/
def variablesOf (s : Sources) : Except LoadError (Keyed String) :=
  match s.variablePath with
  | none => .ok s.env
  | some path => (fileText s path).map (Dotenv.extend s.env)

/-- The path of the configuration file: the caller's, or else the one that a variable names. -/
def configPath (s : Sources) (env : Keyed String) : Option String :=
  s.path <|> (env.get? pathVariable).filter (· != "")

/-- The layer of the configuration file. -/
def fileLayer (s : Sources) (env : Keyed String) : Except LoadError (Keyed Value) :=
  match configPath s env with
  | none => .ok []
  | some path => do fileFields (← fileText s path)

/-- The lowest layer; it leaves the log format open. -/
def defaultLayer : Keyed Value := putAt (sectionFields {}) "logging" "format" .null

/-- The layers laid over each other, from the lowest to the highest. -/
def mergeLayers (layers : List (Keyed Value)) : Keyed Value :=
  layers.foldl (fun base layer => merge base (normalize layer)) []

/-- Load the configuration. -/
def load (s : Sources) : Except LoadError Config := do
  let env ← variablesOf s
  let file ← fileLayer s env
  let fromEnv ← (variableLayer env).mapError .badVariables
  (readFields (mergeLayers [defaultLayer, file, fromEnv, s.overrides])).mapError .badSettings

end StreamResolver.Config
