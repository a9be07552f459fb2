/-
  What is looked for in a player page and its script.

  Five things are looked for, each known by its role: the address of the player script in the watch
  page, the name and the body of the transform function in the script, and the name and the body of
  the helper object that the function calls.
-/

namespace StreamResolver.Cipher

/-- Something to be found by a list of matchers. -/
inductive Role where
  | playerScriptUrl
  | transformFunctionName
  | functionBody
  | helperName
  | helperBody
  deriving DecidableEq, Repr

namespace Role

/-- The name of a role in messages and log events. -/
def name : Role → String
  | .playerScriptUrl => "player-script-url"
  | .transformFunctionName => "transform-function-name"
  | .functionBody => "function-body"
  | .helperName => "helper-name"
  | .helperBody => "helper-body"

/-- All roles. -/
def all : List Role :=
  [.playerScriptUrl, .transformFunctionName, .functionBody, .helperName, .helperBody]

/-- The role of a name. -/
def ofName? (name : String) : Option Role := all.find? (·.name == name)

theorem ofName?_name (r : Role) : ofName? r.name = some r := by cases r <;> decide

end Role

end StreamResolver.Cipher
