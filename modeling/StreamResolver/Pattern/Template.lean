/-
  Expressions with parameters.

  A template is the text of an expression in which `%(name)s` stands for the value of a parameter.
  The value is escaped, so that it matches itself and nothing else, and it is put in place in one
  pass: what looks like a parameter inside a value is not expanded again.  Any other per cent sign is
  ordinary text.
-/
import StreamResolver.Pattern.Expression
import StreamResolver.Keyed

namespace StreamResolver.Template

open Text

/-! ## Escaping -/

/-- The characters that mean something in an expression, and the blanks that layout may drop. -/
def special : List Char := "()[]\x7b\x7d?*+-|^$\\.&~# \t\n\r\x0b\x0c".toList

/-- An expression that matches exactly the given text. -/
def escape (s : List Char) : List Char :=
  s.flatMap fun c => if special.contains c then ['\\', c] else [c]

/-! ## Pieces -/

/-- A piece of a template: a character of the expression, or the place of a parameter. -/
inductive Piece where
  | char (c : Char)
  | hole (name : List Char)
  deriving DecidableEq, Repr

/-- The name of the parameter whose place starts here, behind its per cent sign. -/
def holeName? : List Char → Option (List Char)
  | '(' :: rest =>
    match rest.takeWhile isWord, rest.dropWhile isWord with
    | [], _ => none
    | name, ')' :: 's' :: _ => some name
    | _, _ => none
  | _ => none

/-- The pieces of a template; `skip` counts the characters of a parameter's place still to be passed
    over. -/
def piecesFrom : Nat → List Char → List Piece
  | _, [] => []
  | skip + 1, _ :: rest => piecesFrom skip rest
  | 0, c :: rest =>
    match (if c = '%' then holeName? rest else none) with
    | some name => .hole name :: piecesFrom (name.length + 3) rest
    | none => .char c :: piecesFrom 0 rest

/-- The pieces of a template. -/
def pieces (template : List Char) : List Piece := piecesFrom 0 template

/-- The expression text of a piece; `none` when its parameter is not given. -/
def Piece.fill? (params : Keyed String) : Piece → Option (List Char)
  | .char c => some [c]
  | .hole name => (params.get? (String.ofList name)).map fun v => escape v.toList

/-- The expression of a template; `none` when a parameter is missing. -/
def expand? (params : Keyed String) (template : List Char) : Option (List Char) :=
  ((pieces template).mapM (Piece.fill? params)).map List.flatten

/-- Whether a text is a template rather than a fixed expression. -/
def isTemplate (s : List Char) : Bool := occurs ['%', '('] s

example : pieces ['%', '(', 'x', ')', 's', '%'] = [.hole ['x'], .char '%'] := by decide +kernel

end StreamResolver.Template
