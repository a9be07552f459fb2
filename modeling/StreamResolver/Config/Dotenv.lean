/-
  Variable files.

  A variable file binds names to values, one to a line: `NAME=value`, with `export` in front if one
  likes.  A value is bare, up to a comment or the end of its line, or it is quoted, and then it may
  hold line ends and escapes.  A line that cannot be read is passed over from where the fault is.

  A value may refer to variables, `${NAME}` or `${NAME:-default}`; those of the process come first,
  then the ones bound above.  A variable that the process has is never changed.
-/
import StreamResolver.Text.Basic
import StreamResolver.Keyed

namespace StreamResolver.Dotenv

open Text

/-- A name and its value; a name alone has none. -/
abbrev Binding := List Char × Option (List Char)

/-- A blank that is no line end. -/
def isInlineBlank (c : Char) : Bool := isBlank c && c != '\n' && c != '\r'

def skipInline (s : List Char) : List Char := s.dropWhile isInlineBlank

/-- What is read and the text behind it, or the text at the fault. -/
abbrev Part (α : Type) := Except (List Char) (α × List Char)

/-! ## Names and values -/

/-- Pass `export` and the blanks behind it. -/
def skipExport (s : List Char) : List Char :=
  match dropFront? "export".toList s with
  | some rest => if (rest.head?.map isInlineBlank).getD false then skipInline rest else s
  | none => s

/-- A name, bare or in single quotes; none in front of a comment. -/
def name (s : List Char) : Part (Option (List Char)) :=
  match s with
  | '#' :: _ => .ok (none, s)
  | '\'' :: rest =>
    match cutAt '\'' rest with
    | ([], _) | (_, none) => .error s
    | (n, some rest) => .ok (some n, rest)
  | _ =>
    let ends (c : Char) : Bool := c == '=' || c == '#' || isBlank c
    match s.takeWhile (!ends ·) with
    | [] => .error s
    | n => .ok (some n, s.dropWhile (!ends ·))

/-- What stands before the closing quote, and what behind it.  A quote behind a backslash closes only
    if no other quote does. -/
def quotedBody (quote : Char) : List Char → Option (List Char × List Char)
  | [] => none
  | '\\' :: c :: rest =>
    if c = quote then
      match quotedBody quote rest with
      | some (body, rest) => some ('\\' :: c :: body, rest)
      | none => some (['\\'], rest)
    else (quotedBody quote (c :: rest)).map fun (body, rest) => ('\\' :: body, rest)
  | c :: rest =>
    if c = quote then some ([], rest)
    else (quotedBody quote rest).map fun (body, rest) => (c :: body, rest)

/-- The character that an escape stands for; in single quotes only the backslash and the quote have
    one. -/
def escaped? (quote c : Char) : Option Char :=
  if c == '\\' || c == '\'' then some c
  else if quote == '\'' then none
  else match c with
    | '"' => some '"'
    | 'a' => some '\x07'
    | 'b' => some '\x08'
    | 'f' => some '\x0c'
    | 'n' => some '\n'
    | 'r' => some '\r'
    | 't' => some '\t'
    | 'v' => some '\x0b'
    | _ => none

/-- A quoted text with its escapes resolved. -/
def unescape (quote : Char) : List Char → List Char
  | [] => []
  | '\\' :: c :: rest =>
    match escaped? quote c with
    | some x => x :: unescape quote rest
    | none => '\\' :: unescape quote (c :: rest)
  | c :: rest => c :: unescape quote rest

/-- The part of a bare value before a comment: a number sign behind a blank. -/
def beforeComment : List Char → List Char
  | [] => []
  | c :: rest => if isBlank c && rest.head? == some '#' then [] else c :: beforeComment rest

/-- A value. -/
def value (s : List Char) : Part (List Char) :=
  let quotedWith (quote : Char) (rest : List Char) : Part (List Char) :=
    match quotedBody quote rest with
    | some (body, rest) => .ok (unescape quote body, rest)
    | none => .error s
  match s with
  | '\'' :: rest => quotedWith '\'' rest
  | '"' :: rest => quotedWith '"' rest
  | _ =>
    let isEnd (c : Char) : Bool := c == '\n' || c == '\r'
    .ok (trimEnd isBlank (beforeComment (s.takeWhile (!isEnd ·))), s.dropWhile (!isEnd ·))

/-! ## Lines -/

/-- Pass a comment and the end of the line. -/
def lineEnd (s : List Char) : Part Unit :=
  let s := match skipInline s with
    | '#' :: rest => rest.dropWhile fun c => c != '\n' && c != '\r'
    | _ => s
  match skipInline s with
  | [] => .ok ((), [])
  | '\r' :: '\n' :: rest => .ok ((), rest)
  | c :: rest => if c == '\n' || c == '\r' then .ok ((), rest) else .error s

/-- A line behind its leading blanks. -/
def line (s : List Char) : Except (List Char) (Option Binding × List Char) := do
  let (n, s) ← name (skipExport s)
  let (v, s) ← match skipInline s with
    | '=' :: rest => do
      let (v, rest) ← value (skipInline rest)
      pure (some v, rest)
    | s => pure (none, s)
  let ((), s) ← lineEnd s
  return (n.map (·, v), s)

/-- The bindings of a text; `fuel` bounds the number of lines. -/
def bindingsFrom : Nat → List Char → List Binding
  | 0, _ => []
  | fuel + 1, s =>
    match s.dropWhile isBlank with
    | [] => []
    | s =>
      match line s with
      | .ok (some b, rest) => b :: bindingsFrom fuel rest
      | .ok (none, rest) => bindingsFrom fuel rest
      | .error fault => bindingsFrom fuel (fault.dropWhile (· != '\n'))

/-- The bindings of a text, in order. -/
def bindings (text : List Char) : List Binding := bindingsFrom (text.length + 1) text

/-! ## References to variables -/

/-- A reference behind its `${`: the name, the default, and what follows. -/
def reference? (s : List Char) : Option (List Char × Option (List Char) × List Char) :=
  let isEnd (c : Char) : Bool := c == '}' || c == ':'
  let n := s.takeWhile (!isEnd ·)
  match s.dropWhile (!isEnd ·) with
  | '}' :: rest => some (n, none, rest)
  | ':' :: '-' :: rest =>
    match cutAt '}' rest with
    | (d, some rest) => some (n, some d, rest)
    | (_, none) => none
  | _ => none

/-- The text of a value with its references resolved; `fuel` bounds its length.  A name that is bound
    to nothing counts as empty, also where there is a default. -/
def resolve (lookup : String → Option (Option String)) : Nat → List Char → List Char
  | 0, s => s
  | _ + 1, [] => []
  | fuel + 1, '$' :: '{' :: rest =>
    match reference? rest with
    | some (n, d, rest) =>
      let text := match lookup (String.ofList n) with
        | some v => (v.map String.toList).getD []
        | none => d.getD []
      text ++ resolve lookup fuel rest
    | none => '$' :: resolve lookup fuel ('{' :: rest)
  | fuel + 1, c :: rest => c :: resolve lookup fuel rest

/-- The variables that bindings give, with the references of each resolved. -/
def resolveAll (env : Keyed String) (bs : List Binding) : Keyed (Option String) :=
  bs.foldl (fun known (n, v) =>
    let lookup (name : String) : Option (Option String) :=
      match env.get? name with
      | some v => some (some v)
      | none => known.get? name
    known.put (String.ofList n) (v.map fun v => String.ofList (resolve lookup (v.length + 1) v))) []

/-- The variables of the process and those that a variable file adds. -/
def extend (env : Keyed String) (text : List Char) : Keyed String :=
  env ++ (resolveAll env (bindings (unifyLineEnds text))).filterMap fun (n, v) =>
    if env.has n then none else v.map (n, ·)

example : bindings ['A', '=', '\'', 'b', '\\', '\'', '\'', ' ', '#', 'c', '\n', 'D'] =
    [(['A'], some ['b', '\'']), (['D'], none)] := by decide +kernel

end StreamResolver.Dotenv
