/-
  Messages with places to fill in.

  A message of a library may hold places that its arguments fill: `%s` shows an argument, `%r` shows it
  as it stands in a list, `%d` and `%i` show an integer, and `%%` is a percent sign.  Without arguments
  a message stays as it is.  A message whose places and arguments do not fit has no text.
-/
import StreamResolver.Value.Display

namespace StreamResolver.Log

open Text

/-- The text of an argument in a place of a kind. -/
def placeText? (kind : Char) (v : Value) : Option (List Char) :=
  if kind == 's' then some v.display.toList
  else if kind == 'r' then some v.inner
  else if kind == 'd' || kind == 'i' then
    match v with
    | .int n => some (integerText n)
    | .bool b => some (integerText (if b then 1 else 0))
    | .float x => x.truncate?.map integerText
    | _ => none
  else none

/-- A message with its places filled in. -/
def fillIn? : List Char → List Value → Option (List Char)
  | [], [] => some []
  | [], _ :: _ => none
  | '%' :: '%' :: rest, args => (fillIn? rest args).map ('%' :: ·)
  | '%' :: kind :: rest, v :: args => do
    let text ← placeText? kind v
    return text ++ (← fillIn? rest args)
  | '%' :: _, _ => none
  | c :: rest, args => (fillIn? rest args).map (c :: ·)

/-- The text of a message. -/
def messageText? (message : String) (args : List Value) : Option String :=
  if args.isEmpty then some message else (fillIn? message.toList args).map String.ofList

end StreamResolver.Log
