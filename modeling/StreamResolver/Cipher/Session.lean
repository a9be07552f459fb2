/-
  The session: the transform of the current player script, built once and kept.

  Whoever needs the transform first makes the session read the watch page, find the script in it, read
  the script, find the symbols in the script and compile the transform.  What was built is kept until
  the session is reset; a build that fails leaves nothing behind, so the next one starts from scratch.

  Reading is split where the outside world answers: a text is asked for (`request`) and later there
  (`deliver`).  Here one caller does all steps in a row; `EventLoop` lets many callers take turns over
  the same steps.
-/
import StreamResolver.Cipher.Deciphering
import StreamResolver.Log.Action

namespace StreamResolver.Cipher

open Text

/-- A player script and the URL it was read from. -/
structure Script where
  url : String
  source : String
  deriving DecidableEq, Repr

/-- What a script gives: the symbols in it, the table of the helper and the transform over it. -/
structure Build where
  symbols : Symbols
  table : OperationTable
  transform : Transform
  deriving DecidableEq, Repr

/-- What a session keeps. -/
structure Cache where
  script : Option Script := none
  symbols : Option Symbols := none
  table : Option OperationTable := none
  transform : Option Transform := none
  deriving DecidableEq, Repr

namespace Cache

/-- Keep a script. -/
def withScript (c : Cache) (script : Script) : Cache := { c with script := some script }

/-- Keep what a script gave. -/
def withBuild (c : Cache) (b : Build) : Cache :=
  { c with symbols := some b.symbols, table := some b.table, transform := some b.transform }

/-- What a script gave, if all of it is kept. -/
def build (c : Cache) : Option Build :=
  match c.symbols, c.table, c.transform with
  | some symbols, some table, some transform => some ⟨symbols, table, transform⟩
  | _, _, _ => none

end Cache

/-- What a session works with. -/
structure Settings where
  /-- The page that names the current player script; any public video does. -/
  watchUrl : String := "https://www.youtube.com/watch?v=dQw4w9WgXcQ"
  /-- What a relative script URL is relative to. -/
  playerBase : String := "https://www.youtube.com"
  /-- The name of the ciphered query parameter. -/
  param : String := "n"
  /-- Matchers that replace the default ones. -/
  patterns : Patterns := []

/-- A way to read texts: one is asked for, and later it is there or reading it failed. -/
structure Fetcher (σ : Type) where
  request : String → σ → σ
  deliver : String → Action σ String

/-- What is kept, and the world that the fetcher acts on. -/
structure Session (σ : Type) where
  cache : Cache := {}
  world : σ

/-! ## From page to script, from script to transform -/

/-- The URL of the player script that a watch page names. -/
def scriptUrl (settings : Settings) (page : String) : Reporting Failure String := do
  let found ← locate page .playerScriptUrl (settings.patterns.matchersFor .playerScriptUrl) []
  let path := replaceAll ['\\', '/'] ['/'] found.value.toList
  match Url.join settings.playerBase.toList path with
  | .ok url => return String.ofList url
  | .error f => throw (.fault f)

/-- Find the symbols of a script and compile the transform. -/
def buildFrom (patterns : Patterns) (script : Script) : Reporting Failure Build := do
  let symbols ← extractSymbols script.source patterns
  let table ← operationTable symbols.helperBody
  let transform ← compileTransform symbols.functionBody table
  return ⟨symbols, table, transform⟩

namespace Session

variable {σ : Type}

/-- Whether the transform is there. -/
def isReady (s : Session σ) : Bool := s.cache.transform.isSome

/-- Drop everything that is kept. -/
def clear (s : Session σ) : Session σ := { s with cache := {} }

/-- An action on the world. -/
def onWorld {α : Type} (p : Action σ α) : Action (Session σ) α :=
  p.onPart Session.world fun w s => { s with world := w }

/-! ## Steps of a build -/

/-- Ask for the watch page. -/
def askForPage (settings : Settings) (f : Fetcher σ) : Action (Session σ) Unit :=
  onWorld (.modify (f.request settings.watchUrl))

/-- Take the watch page and ask for the script that it names; the value is the URL of the script. -/
def askForSource (settings : Settings) (f : Fetcher σ) : Action (Session σ) String := do
  let page ← onWorld (f.deliver settings.watchUrl)
  let url ← .ofReporting (scriptUrl settings page)
  onWorld (.modify (f.request url))
  return url

/-- Take the script and keep it. -/
def keepScript (f : Fetcher σ) (url : String) : Action (Session σ) Script := do
  let source ← onWorld (f.deliver url)
  let script : Script := ⟨url, source⟩
  .modify fun s => { s with cache := s.cache.withScript script }
  .emit .info "cipher_player_script_fetched" [("url", .str url), ("size", .int source.length)]
  return script

/-- Build the transform from a script and keep it. -/
def keepBuild (settings : Settings) (script : Script) : Action (Session σ) Transform := do
  let build ← .ofReporting (buildFrom settings.patterns script)
  .modify fun s => { s with cache := s.cache.withBuild build }
  .emit .info "cipher_transform_built"
    [("function", .str build.symbols.functionName), ("helper", .str build.symbols.helperName),
     ("operations", .int build.table.length),
     ("steps", .int build.transform.instructions.length)]
  return build.transform

/-- Give up a build: nothing is kept, and an announced failure is reported. -/
def abandon (e : Failure) : Action (Session σ) Unit := do
  .modify clear
  match e with
  | .extractor e =>
    .emit .warning "cipher_build_failed" [("error", .str e.message), ("error_type", .str e.kind)]
  | .fault _ => return ()

/-! ## One caller at a time -/

/-- The player script, read unless it is kept. -/
def script (settings : Settings) (f : Fetcher σ) : Action (Session σ) Script := do
  match (← .get).cache.script with
  | some kept => return kept
  | none =>
    askForPage settings f
    let url ← askForSource settings f
    keepScript f url

/-- The transform, built unless it is kept. -/
def transform (settings : Settings) (f : Fetcher σ) : Action (Session σ) Transform := do
  match (← .get).cache.transform with
  | some kept => return kept
  | none =>
    let built : Action (Session σ) Transform := do keepBuild settings (← script settings f)
    match ← built.attempt with
    | .ok t => return t
    | .error e =>
      abandon e
      .fail e

/-- Pairs of a query with the ciphered values decoded; the transform is only asked for when there is
    one. -/
def decodePairs (settings : Settings) (f : Fetcher σ) :
    List Query.Pair → Action (Session σ) (List Query.Pair)
  | [] => return []
  | p :: rest => do
    let p ← decodePair? p
    return p :: (← decodePairs settings f rest)
where
  /-- A pair with its value decoded if it is ciphered. -/
  decodePair? (p : Query.Pair) : Action (Session σ) Query.Pair := do
    if isCiphered settings.param.toList p then
      return (p.1, (← transform settings f).run p.2)
    else return p

/-- A URL with its ciphered values decoded. -/
def decipher (settings : Settings) (f : Fetcher σ) (url : String) : Action (Session σ) String := do
  let parts ← .ofFault (Url.split url.toList)
  return withPairs parts (← decodePairs settings f (Query.parse parts.query))

end Session

end StreamResolver.Cipher
