/-
  Matchers and their cascade.

  A matcher is an expression, perhaps with parameters, that captures a piece of a text.  Each role
  owns an ordered list of matchers, because the script changes between releases: the first matcher
  that captures something non-empty wins, and matchers are only ever appended.

  An indexed matcher captures a name that may be reached through an array slot: newer scripts call
  the transform as `Xy[0](b)` where `var Xy=[realName]`.  Capture 1 is the name, capture 2 the index.

  Statement: whatever `locate` returns is not empty.
-/
import StreamResolver.Cipher.Role
import StreamResolver.Failure
import StreamResolver.Log.Event
import StreamResolver.Pattern.Template

namespace StreamResolver.Cipher

open Text Expression

/-- An expression that captures a piece of a text. -/
structure Matcher where
  template : String
  /-- Which capture is wanted; 0 is the whole match. -/
  capture : Nat := 1
  flags : Flags := {}
  /-- The name in capture 1 is to be looked up in an array when capture 2 gives an index. -/
  indexed : Bool := false

namespace Matcher

/-- How a matcher is shown: its kind and its template. -/
def text (m : Matcher) : String :=
  (if m.indexed then "IndexedNameMatcher(" else "RegexMatcher(") ++
    String.ofList (quoted m.template.toList) ++ ")"

/-- The problem of a fixed expression; a template is only read when its parameters are known. -/
def problem? (m : Matcher) : Option Problem :=
  if Template.isTemplate m.template.toList then none
  else match compile m.flags m.template.toList with
    | .ok _ => none
    | .error p => some p

/-- The expression for the given parameters.  An expanded template that is no expression is reported
    and matches nothing. -/
def expression? (m : Matcher) (params : Keyed String) : Reporting Failure (Option Compiled) := do
  if Template.isTemplate m.template.toList then
    match Template.expand? params m.template.toList with
    | none => return none
    | some expr =>
      match compile m.flags expr with
      | .ok c => return some c
      | .error p =>
        Reporting.emit .warning "cipher_pattern_invalid"
          [("template", .str m.template), ("error", .str (p.message expr))]
        return none
  else match compile m.flags m.template.toList with
    | .ok c => return some c
    | .error _ => return none

/-- A captured text, if it is not empty. -/
def nonEmpty? (s : Option (List Char)) : Option String :=
  match s with
  | some (c :: rest) => some (String.ofList (c :: rest))
  | _ => none

/-- The declaration of the array with the given name; its items are capture 1. -/
def arrayDeclaration (name : List Char) : Pattern :=
  .sequence [.word "var", .some1 .blank, .literal name, .many .blank, .word "=", .many .blank,
    .word "[", .capture 1 (.some1 (.noneOf [']'])), .word "]"]

/-- The items of the array with the given name that is declared first in the text. -/
def arrayItems? (name text : List Char) : Option (List (List Char)) :=
  (((arrayDeclaration name).search? text).bind (·.group? 1)).map fun items =>
    (splitOn ',' items).map trim

/-- The item in a slot; a slot behind the last item is empty, a negative one counts from the end. -/
def slot? (items : List (List Char)) (position : Int) : Except Failure (Option String) :=
  if position ≥ items.length then .ok none
  else
    let i := if position < 0 then position + items.length else position
    if i < 0 then .error (.fault .outOfRange) else .ok (nonEmpty? items[i.toNat]?)

/-- The name that an indexed match stands for. -/
def resolve (text : List Char) (m : Pattern.Found) : Except Failure (Option String) :=
  match m.group? 2 with
  | none | some [] => .ok (nonEmpty? (m.group? 1))
  | some index =>
    match m.group? 1 with
    | none => .error (.fault .wrongKind)
    | some name =>
      match arrayItems? name text with
      | none => .ok none
      | some items =>
        match readInteger index with
        | .error _ => .error (.fault .unreadableNumeral)
        | .ok position => slot? items position

/-- What the matcher captures in a text, if it is not empty. -/
def search (m : Matcher) (text : String) (params : Keyed String) :
    Reporting Failure (Option String) := do
  match ← m.expression? params with
  | none => return none
  | some c =>
    match c.pattern.search? text.toList with
    | none => return none
    | some found =>
      if m.indexed then
        if c.groups < 2 then throw (.fault .outOfRange)
        else liftExcept (resolve text.toList found)
      else if c.groups < m.capture then throw (.fault .outOfRange)
      else return nonEmpty? (found.group? m.capture)
where
  /-- A result without events. -/
  liftExcept {α : Type} : Except Failure α → Reporting Failure α
    | .ok a => pure a
    | .error e => throw e

end Matcher

/-! ## The default matchers -/

/-- A matcher for a fixed expression or a template, the point matching everything. -/
def acrossLines (template : String) : Matcher := { template, flags := { dotAll := true } }

/-- The default matchers of a role. -/
def defaultMatchers : Role → List Matcher
  | .playerScriptUrl =>
    [{ template := "\"jsUrl\"\\s*:\\s*\"([^\"]+)\"" },
     { template := "\"PLAYER_JS_URL\"\\s*:\\s*\"([^\"]+)\"" },
     { template := "<script[^>]+src=\"([^\"]+/base\\.js)\"" },
     { template := "(/s/player/[\\w-]+/[\\w./-]+/base\\.js)" }]
  | .transformFunctionName =>
    [{ template := "\\.get\\(\"n\"\\)\\)&&\\(b=([a-zA-Z0-9$_]+)(?:\\[(\\d+)\\])?\\([a-zA-Z0-9]\\)"
       indexed := true },
     { template := "a\\.[a-zA-Z]\\s*&&\\s*\\([a-z]\\s*=\\s*a\\.get\\(\"n\"\\)\\)\\s*&&\\s*" ++
         "\\([a-z]\\s*=\\s*([a-zA-Z0-9$_]+)(?:\\[(\\d+)\\])?\\([a-z]\\)"
       indexed := true },
     { template := "\\b[cs]\\s*&&\\s*[adf]\\.set\\([^,]+\\s*,\\s*encodeURIComponent\\s*\\(\\s*" ++
         "([a-zA-Z0-9$_]\x7b2,\x7d)\\s*\\(" },
     { template := "(?:^|[;,\\s])([a-zA-Z0-9$_]\x7b2,\x7d)\\s*=\\s*function\\s*\\(\\s*a\\s*\\)" ++
         "\\s*\\\x7b\\s*a\\s*=\\s*a\\.split\\(\\s*\"\"\\s*\\)" }]
  | .functionBody =>
    [acrossLines ("(?<![\\w$])%(name)s\\s*=\\s*function\\s*\\(\\s*\\w+\\s*\\)\\s*" ++
       "\\\x7b(.*?)\\\x7d"),
     acrossLines "function\\s+%(name)s\\s*\\(\\s*\\w+\\s*\\)\\s*\\\x7b(.*?)\\\x7d",
     acrossLines "(?<![\\w$])%(name)s\\s*=\\s*\\(?\\s*\\w+\\s*\\)?\\s*=>\\s*\\\x7b(.*?)\\\x7d"]
  | .helperName =>
    [{ template := "([a-zA-Z0-9$_]\x7b2,\x7d)\\.[a-zA-Z0-9$_]\x7b2\x7d\\(\\s*\\w+\\s*,\\s*\\d+" ++
         "\\s*\\)" },
     { template := "([a-zA-Z0-9$_]\x7b2,\x7d)\\[\\s*[\\\"'][\\w$]+[\\\"']\\s*\\]\\(\\s*\\w+\\s*," ++
         "\\s*\\d+\\s*\\)" },
     { template := "([a-zA-Z0-9$_]\x7b2,\x7d)\\.[a-zA-Z0-9$_]+\\(\\s*\\w+\\s*\\)" },
     { template := "([a-zA-Z0-9$_]\x7b2,\x7d)\\.[a-zA-Z0-9$_]+\\(\\s*\\w+\\s*,\\s*\\d+\\s*\\)" }]
  | .helperBody =>
    [acrossLines "var\\s+%(name)s\\s*=\\s*\\\x7b(.*?)\\\x7d;",
     acrossLines "(?<![\\w$.])%(name)s\\s*=\\s*\\\x7b(.*?)\\\x7d;",
     acrossLines "(?:let|const)\\s+%(name)s\\s*=\\s*\\\x7b(.*?)\\\x7d\\s*[;,]"]

/-- Matchers that replace the default ones of some roles. -/
abbrev Patterns := List (Role × List Matcher)

/-- The matchers given for a role, if any are. -/
def Patterns.given? (patterns : Patterns) (role : Role) : Option (List Matcher) :=
  (patterns.find? (·.1 == role)).map (·.2)

/-- The matchers for a role: the given ones, else the default ones. -/
def Patterns.matchersFor (patterns : Patterns) (role : Role) : List Matcher :=
  (patterns.given? role).getD (defaultMatchers role)

/-! ## The cascade -/

/-- A captured text and the position of the matcher that captured it. -/
structure Located where
  value : String
  index : Nat
  deriving DecidableEq, Repr

/-- The first capture of a list of matchers of which the first has the given position. -/
def firstCapture (text : String) (params : Keyed String) :
    List Matcher → Nat → Reporting Failure (Option Located)
  | [], _ => return none
  | m :: rest, index => do
    match ← m.search text params with
    | some value => return some ⟨value, index⟩
    | none => firstCapture text params rest (index + 1)

/-- The first capture of the matchers for a role. -/
def locate (text : String) (role : Role) (matchers : List Matcher) (params : Keyed String) :
    Reporting Failure Located := do
  match ← firstCapture text params matchers 0 with
  | some found =>
    Reporting.emit .debug "cipher_pattern_matched"
      [("role", .str role.name), ("index", .int found.index)]
    return found
  | none =>
    Reporting.emit .warning "cipher_pattern_exhausted"
      [("role", .str role.name), ("tried", .int matchers.length)]
    throw (.extractor (.extractionFailed role.name))

/-! ## Symbols of a script -/

/-- The named parts of a player script that the transform is made of. -/
structure Symbols where
  functionName : String
  functionBody : String
  helperName : String
  helperBody : String
  deriving DecidableEq, Repr

/-- Find the transform function, its body, the helper it calls and the helper's body, in this
    order. -/
def extractSymbols (source : String) (patterns : Patterns) : Reporting Failure Symbols := do
  let name ← locate source .transformFunctionName (patterns.matchersFor .transformFunctionName) []
  let body ← locate source .functionBody (patterns.matchersFor .functionBody) [("name", name.value)]
  let helper ← locate body.value .helperName (patterns.matchersFor .helperName) []
  let helperBody ← locate source .helperBody (patterns.matchersFor .helperBody) [("name", helper.value)]
  return ⟨name.value, body.value, helper.value, helperBody.value⟩

end StreamResolver.Cipher
