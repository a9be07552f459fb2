/-
  Reading expressions from text.

  The text of an expression is read from left to right with a stack of open groups: a character or a
  class becomes an item of the innermost group, a quantifier replaces the last item by its
  repetition, a bar closes an alternative, a closing parenthesis turns the innermost group into an
  item of the group around it.  Every step consumes at least one character, so the length of the text
  is fuel enough.

  A problem is reported as a cause and a position; the position is kept as the length of the text
  that is still unread, and only turned into an offset when the message is made.

  Supported: classes and the properties `\d \w \s` with their complements, the places
  `^ $ \A \Z \b \B`, greedy, lazy and possessive quantifiers, capturing, named, plain, atomic and
  conditional groups, looking ahead and behind, recalls by number and by name, and the flags for
  caseless matching, lines, a point that matches everything, free layout and ASCII properties.
-/
import StreamResolver.Pattern.Search
import StreamResolver.Value.Display
import StreamResolver.Value.Json

namespace StreamResolver.Expression

open Text

/-! ## Problems -/

/-- What is wrong with the text of an expression. -/
inductive Cause where
  | unterminatedGroup
  | unbalancedParenthesis
  | nothingToRepeat
  | multipleRepeat
  | repeatBounds
  | unterminatedClass
  | badRange (lo hi : List Char)
  | badEscape (escape : List Char)
  | escapeAtEnd
  | incompleteEscape (escape : List Char)
  | octalTooLarge (escape : List Char)
  | noSuchGroup (n : Nat)
  | openGroup
  | badGroupNumber
  | unknownName (name : List Char)
  | badName (name : List Char)
  | nameTaken (name : List Char) (now before : Nat)
  | missingName
  | unterminatedName (closer : Char)
  | unexpectedEnd
  | unknownExtension (mark : List Char)
  | unterminatedComment
  | lateFlags
  | unknownFlag
  | missingFlag
  | missingFlagEnd
  | missingColon
  | localeFlag
  | clashingFlags
  | scriptFlagOff
  | templateFlagOn
  | templateFlagOff
  | flagOnAndOff
  | groupOfLookBehind
  | tooManyBranches
  | variableWidth
  deriving DecidableEq, Repr

/-- The wording of a cause. -/
def Cause.text : Cause → List Char
  | .unterminatedGroup => "missing ), unterminated subpattern".toList
  | .unbalancedParenthesis => "unbalanced parenthesis".toList
  | .nothingToRepeat => "nothing to repeat".toList
  | .multipleRepeat => "multiple repeat".toList
  | .repeatBounds => "min repeat greater than max repeat".toList
  | .unterminatedClass => "unterminated character set".toList
  | .badRange lo hi => "bad character range ".toList ++ lo ++ '-' :: hi
  | .badEscape e => "bad escape ".toList ++ e
  | .escapeAtEnd => "bad escape (end of pattern)".toList
  | .incompleteEscape e => "incomplete escape ".toList ++ e
  | .octalTooLarge e => "octal escape value ".toList ++ e ++ " outside of range 0-0o377".toList
  | .noSuchGroup n => "invalid group reference ".toList ++ decimals n
  | .openGroup => "cannot refer to an open group".toList
  | .badGroupNumber => "bad group number".toList
  | .unknownName n => "unknown group name ".toList ++ quoted n
  | .badName n => "bad character in group name ".toList ++ quoted n
  | .nameTaken n now before =>
    "redefinition of group name ".toList ++ quoted n ++ " as group ".toList ++ decimals now ++
      "; was group ".toList ++ decimals before
  | .missingName => "missing group name".toList
  | .unterminatedName c => "missing ".toList ++ c :: ", unterminated name".toList
  | .unexpectedEnd => "unexpected end of pattern".toList
  | .unknownExtension m => "unknown extension ".toList ++ m
  | .unterminatedComment => "missing ), unterminated comment".toList
  | .lateFlags => "global flags not at the start of the expression".toList
  | .unknownFlag => "unknown flag".toList
  | .missingFlag => "missing flag".toList
  | .missingFlagEnd => "missing -, : or )".toList
  | .missingColon => "missing :".toList
  | .clashingFlags => "bad inline flags: flags 'a', 'u' and 'L' are incompatible".toList
  | .scriptFlagOff => "bad inline flags: cannot turn off flags 'a', 'u' and 'L'".toList
  | .templateFlagOn => "bad inline flags: cannot turn on global flag".toList
  | .templateFlagOff => "bad inline flags: cannot turn off global flag".toList
  | .flagOnAndOff => "bad inline flags: flag turned on and off".toList
  | .groupOfLookBehind =>
    "cannot refer to group defined in the same lookbehind subpattern".toList
  | .localeFlag => "bad inline flags: cannot use 'L' flag with a str pattern".toList
  | .tooManyBranches => "conditional backref with more than two branches".toList
  | .variableWidth => "look-behind requires fixed-width pattern".toList

/-- A problem: its cause, and how much of the text is unread at its place (if it has one). -/
structure Problem where
  cause : Cause
  unread : Option Nat
  deriving DecidableEq, Repr

/-- A problem in front of the given unread text. -/
def Problem.before (cause : Cause) (rest : List Char) : Problem := ⟨cause, some rest.length⟩

/-- The message of a problem in an expression: the cause and its place; the line and the column are
    added when the expression has several lines. -/
def Problem.message (expression : List Char) (p : Problem) : String :=
  match p.unread with
  | none => String.ofList p.cause.text
  | some unread =>
    let position := expression.length - unread
    let front := expression.take position
    let place :=
      if expression.contains '\n' then
        " (line ".toList ++ decimals (front.count '\n' + 1) ++ ", column ".toList ++
          decimals ((front.reverse.takeWhile (· ≠ '\n')).length + 1) ++ [')']
      else []
    String.ofList (p.cause.text ++ " at position ".toList ++ decimals position ++ place)

/-! ## Flags -/

/-- How the characters of an expression are to be taken. -/
structure Flags where
  /-- Disregard case. -/
  caseless : Bool := false
  /-- `^` and `$` match at every line. -/
  multiline : Bool := false
  /-- The point matches the line feed too. -/
  dotAll : Bool := false
  /-- Blanks and comments in the expression are layout. -/
  verbose : Bool := false
  /-- The properties hold of ASCII characters only. -/
  ascii : Bool := false
  deriving DecidableEq, Repr

namespace Flags

/-- Switch a flag on or off by its letter. -/
def set? (f : Flags) (on : Bool) : Char → Option Flags
  | 'i' => some { f with caseless := on }
  | 'm' => some { f with multiline := on }
  | 's' => some { f with dotAll := on }
  | 'x' => some { f with verbose := on }
  | 'a' => some { f with ascii := on }
  | 'u' => some { f with ascii := !on }
  | _ => none

/-- The set of a single character. -/
def charSet (f : Flags) (c : Char) : CharSet :=
  if f.caseless then .caseless (.char c) else .char c

/-- The set of a range. -/
def rangeSet (f : Flags) (lo hi : Char) : CharSet :=
  if f.caseless then .caseless (.range lo hi) else .range lo hi

/-- The set of the point. -/
def pointSet (f : Flags) : CharSet := if f.dotAll then .any else .notNewline

/-- The set of a property letter. -/
def propertySet? (f : Flags) : Char → Option CharSet
  | 'd' => some digits
  | 'D' => some (.compl digits)
  | 's' => some blanks
  | 'S' => some (.compl blanks)
  | 'w' => some words
  | 'W' => some (.compl words)
  | _ => none
where
  digits := if f.ascii then .range '0' '9' else .digit
  blanks := if f.ascii then .union [.range '\t' '\r', .char ' '] else .blank
  words :=
    if f.ascii then .union [.range 'a' 'z', .range 'A' 'Z', .range '0' '9', .char '_'] else .word

end Flags

/-! ## Escapes -/

/-- The character of an escape letter that stands for a control character. -/
def controlEscape? : Char → Option Char
  | 'a' => some '\x07'
  | 'f' => some '\x0c'
  | 'n' => some '\n'
  | 'r' => some '\r'
  | 't' => some '\t'
  | 'v' => some '\x0b'
  | _ => none

/-- Whether a character is an octal digit. -/
def isOctal (c : Char) : Bool := '0' ≤ c && c ≤ '7'

/-- The number that octal digits stand for. -/
def octalValue (s : List Char) : Nat := s.foldl (fun n c => 8 * n + (c.toNat - 0x30)) 0

/-- The number that hexadecimal digits stand for. -/
def hexNumber (s : List Char) : Nat :=
  s.foldl (fun n c => 16 * n + (Json.hexValue? c).getD 0) 0

/-- The number of hexadecimal digits behind an escape letter. -/
def hexWidth? : Char → Option Nat
  | 'x' => some 2
  | 'u' => some 4
  | 'U' => some 8
  | _ => none

/-- A character given by a fixed number of hexadecimal digits behind its letter. -/
def hexEscape (letter : Char) (width : Nat) (rest : List Char) :
    Except Problem (Char × List Char) :=
  let ds := (rest.take width).takeWhile fun c => (Json.hexValue? c).isSome
  if ds.length < width then
    .error (.before (.incompleteEscape ('\\' :: letter :: ds)) ('\\' :: letter :: rest))
  else if hexNumber ds > 0x10ffff then
    .error (.before (.badEscape ('\\' :: letter :: ds)) ('\\' :: letter :: rest))
  else .ok (Char.ofNat (hexNumber ds), rest.drop width)

/-- An escape inside a class: a set, and the character if it is a single one. -/
def classEscape (f : Flags) (c : Char) (rest : List Char) :
    Except Problem ((CharSet × Option Char) × List Char) :=
  let single (x : Char) := (f.charSet x, some x)
  match controlEscape? c with
  | some x => .ok (single x, rest)
  | none =>
    if c = 'b' then .ok (single '\x08', rest)
    else match f.propertySet? c with
    | some set => .ok ((set, none), rest)
    | none =>
      match hexWidth? c with
      | some width => do
        let (x, rest) ← hexEscape c width rest
        return (single x, rest)
      | none =>
        if isOctal c then
          let ds := c :: (rest.take 2).takeWhile isOctal
          if octalValue ds > 0o377 then
            .error (.before (.octalTooLarge ('\\' :: ds)) ('\\' :: c :: rest))
          else .ok (single (Char.ofNat (octalValue ds)), rest.drop (ds.length - 1))
        else if c.isAlphanum then .error (.before (.badEscape ['\\', c]) ('\\' :: c :: rest))
        else .ok (single c, rest)

/-! ## Classes -/

/-- One element of a class: a set, the character if it is a single one, and its spelling. -/
def classElement (f : Flags) (opened : List Char) :
    List Char → Except Problem ((CharSet × Option Char × List Char) × List Char)
  | [] => .error (.before .unterminatedClass opened)
  | ['\\'] => .error (.before .escapeAtEnd ['\\'])
  | '\\' :: c :: rest => do
    let ((set, x), rest) ← classEscape f c rest
    return ((set, x, ['\\', c]), rest)
  | c :: rest => .ok ((f.charSet c, some c, [c]), rest)

/-- The elements of a class up to its closing bracket; a bracket that comes first is an element. -/
def classBody (f : Flags) (opened : List Char) :
    Nat → Bool → List Char → Except Problem (List CharSet × List Char)
  | 0, _, _ => .error (.before .unterminatedClass opened)
  | fuel + 1, isFirst, s => do
    match s, isFirst with
    | ']' :: rest, false => return ([], rest)
    | _, _ =>
      let ((set, lo, spelled), rest) ← classElement f opened s
      match rest with
      | '-' :: ']' :: rest => return ([set, f.charSet '-'], rest)
      | '-' :: rest =>
        let ((_, hi, spelled'), rest') ← classElement f opened rest
        let bad : Problem :=
          ⟨.badRange spelled spelled', some (rest'.length + spelled.length + 1 + spelled'.length)⟩
        match lo, hi with
        | some lo, some hi =>
          if hi < lo then .error bad
          else
            let (sets, rest) ← classBody f opened fuel false rest'
            return (f.rangeSet lo hi :: sets, rest)
        | _, _ => .error bad
      | rest =>
        let (sets, rest) ← classBody f opened fuel false rest
        return (set :: sets, rest)

/-- A class after its opening bracket. -/
def readClass (f : Flags) (s : List Char) : Except Problem (CharSet × List Char) := do
  let opened := '[' :: s
  match s with
  | '^' :: rest =>
    let (sets, rest) ← classBody f opened (s.length + 1) true rest
    return (.compl (.union sets), rest)
  | _ =>
    let (sets, rest) ← classBody f opened (s.length + 1) true s
    return (.union sets, rest)

/-! ## Quantifiers -/

/-- The bounds of a quantifier in braces, after the opening brace; `none` when the brace is an
    ordinary character. -/
def braceBounds (s : List Char) : Option ((Nat × Option Nat) × List Char) :=
  match s with
  | '\x7d' :: _ => none
  | _ =>
    let number (ds : List Char) := valueOf (ds.map fun c => c.toNat - 0x30)
    let lo := s.takeWhile Char.isDigit
    match s.dropWhile Char.isDigit with
    | ',' :: rest =>
      let hi := rest.takeWhile Char.isDigit
      match rest.dropWhile Char.isDigit with
      | '\x7d' :: rest =>
        some ((number lo, if hi.isEmpty then none else some (number hi)), rest)
      | _ => none
    | '\x7d' :: rest => some ((number lo, if lo.isEmpty then none else some (number lo)), rest)
    | _ => none

/-- How a repetition chooses the number of its rounds. -/
inductive Mode where
  | greedy
  | lazy
  | possessive
  deriving DecidableEq, Repr

/-- The mode behind a quantifier. -/
def readMode : List Char → Mode × List Char
  | '?' :: rest => (.lazy, rest)
  | '+' :: rest => (.possessive, rest)
  | rest => (.greedy, rest)

/-- The repetition of a part; a run of characters of one set is a span. -/
def repeated (mode : Mode) (min : Nat) (max : Option Nat) (part : Pattern) : Pattern :=
  let p := match part with
    | .one set => .span (mode == .lazy) min max set
    | p => .loop (mode == .lazy) min max p
  if mode == .possessive then .atomic p else p

/-! ## The stack of open groups -/

/-- What a closing parenthesis makes of a group. -/
inductive GroupKind where
  | plain
  | capturing (n : Nat)
  | atomic
  | look (behind negated : Bool)
  | conditional (n : Nat)
  deriving DecidableEq, Repr

/-- What a quantifier may do with an item. -/
inductive ItemKind where
  | part
  | place
  | repetition
  deriving DecidableEq, Repr

/-- An open group: the text from its parenthesis on, its finished alternatives and the items of the
    current one, the latest first. -/
structure Frame where
  kind : GroupKind
  opened : List Char
  flags : Flags
  alternatives : List Pattern
  items : List (ItemKind × Pattern)
  /-- How many capturing groups were opened before it. -/
  before : Nat

/-- What has been read. -/
structure Reading where
  current : Frame
  outer : List Frame
  /-- How many capturing groups have been opened. -/
  groups : Nat
  names : List (List Char × Nat)
  /-- The fixed widths of the closed groups. -/
  widths : List (Nat × Option Nat)
  /-- Group numbers that conditions ask for, with their places. -/
  asked : List (Nat × Nat)
  /-- A look behind of no fixed width has been closed. -/
  unfixed : Bool

namespace Frame

/-- The current alternative as an expression. -/
def branch (f : Frame) : Pattern := .sequence (f.items.reverse.map (·.2))

/-- All alternatives as an expression. -/
def body (f : Frame) : Pattern := .anyOf ((f.branch :: f.alternatives).reverse)

/-- Add an item. -/
def push (f : Frame) (kind : ItemKind) (p : Pattern) : Frame :=
  { f with items := (kind, p) :: f.items }

end Frame

namespace Reading

/-- Add an item to the innermost group. -/
def push (r : Reading) (kind : ItemKind) (p : Pattern) : Reading :=
  { r with current := r.current.push kind p }

/-- Open a group. -/
def enter (r : Reading) (kind : GroupKind) (flags : Flags) (opened : List Char) : Reading :=
  { r with current := ⟨kind, opened, flags, [], [], r.groups⟩, outer := r.current :: r.outer }

/-- Whether a group is still open. -/
def isOpen (r : Reading) (n : Nat) : Bool :=
  (r.current :: r.outer).any fun f => f.kind == .capturing n

/-- Whether a frame is that of a look behind. -/
def isLookBehind (f : Frame) : Bool :=
  match f.kind with
  | .look true _ => true
  | _ => false

/-- Inside a look behind, a group can be referred to only if it was closed before; `place` is the text
    behind the reference. -/
def checkBehind (r : Reading) (n : Nat) (place : List Char) : Except Problem Unit :=
  match (r.current :: r.outer).reverse.find? isLookBehind with
  | none => .ok ()
  | some f =>
    if r.groups < n || r.isOpen n then .error (.before .openGroup place)
    else if f.before < n then .error (.before .groupOfLookBehind place)
    else .ok ()

end Reading

/-- The width of all matches of an expression, when there is one. -/
def fixedWidth? (widths : List (Nat × Option Nat)) : Pattern → Option Nat
  | .empty => some 0
  | .one _ => some 1
  | .span _ min max _ => if max = some min then some min else none
  | .seq p q => do return (← fixedWidth? widths p) + (← fixedWidth? widths q)
  | .alt p q => do
    let m ← fixedWidth? widths p
    let n ← fixedWidth? widths q
    if m = n then return m else none
  | .capture _ p => fixedWidth? widths p
  | .recall _ n => (widths.find? (·.1 == n)).bind (·.2)
  | .loop _ min max p =>
    match fixedWidth? widths p with
    | some w => if max = some min || w = 0 then some (min * w) else none
    | none => if max = some 0 then some 0 else none
  | .atomic p => fixedWidth? widths p
  | .ifCaptured _ p q => do
    let m ← fixedWidth? widths p
    let n ← fixedWidth? widths q
    if m = n then return m else none
  | _ => some 0

/-! ## Groups -/

/-- A name up to its closing character. -/
def readName (closer : Char) (s : List Char) : Except Problem (List Char × List Char) :=
  let name := s.takeWhile (· ≠ closer)
  match s.dropWhile (· ≠ closer) with
  | [] =>
    if name.isEmpty then .error (.before .missingName [])
    else .error (.before (.unterminatedName closer) s)
  | _ :: rest => if name.isEmpty then .error (.before .missingName s) else .ok (name, rest)

/-- Whether a name is an identifier. -/
def isIdentifier : List Char → Bool
  | [] => false
  | c :: rest => isWord c && !isDigit c && rest.all isWord

/-- The letters of flags; that of templates has no effect. -/
def flagLetters : List Char := ['i', 'L', 'm', 's', 'x', 'a', 't', 'u']

/-- The letters of flags that choose the script of the properties. -/
def scriptFlags : List Char := ['a', 'u', 'L']

/-- The cause for a character in the place of a flag; an escape is no letter. -/
def notFlag (c : Char) (otherwise : Cause) : Cause :=
  if isWord c && !isDigit c && c != '_' then .unknownFlag else otherwise

/-- The letters of flags to switch on, up to the character that ends them; `s` starts with a letter. -/
def lettersOn : List Char → List Char → Except Problem (List Char × List Char)
  | ls, [] => .ok (ls, [])
  | ls, c :: rest =>
    if c = 'L' then .error (.before .localeFlag rest)
    else if scriptFlags.contains c && ls.any fun l => scriptFlags.contains l && l != c then
      .error (.before .clashingFlags rest)
    else match rest with
      | [] => .error (.before .missingFlagEnd [])
      | d :: _ =>
        if d = ')' || d = '-' || d = ':' then .ok (ls ++ [c], rest)
        else if flagLetters.contains d then lettersOn (ls ++ [c]) rest
        else .error (.before (notFlag d .missingFlagEnd) rest)

/-- The letters of flags to switch off, up to the colon; `s` starts with a letter. -/
def lettersOff : List Char → List Char → Except Problem (List Char × List Char)
  | ls, [] => .ok (ls, [])
  | ls, c :: rest =>
    if scriptFlags.contains c then .error (.before .scriptFlagOff rest)
    else match rest with
      | [] => .error (.before .missingColon [])
      | d :: _ =>
        if d = ':' then .ok (ls ++ [c], rest)
        else if flagLetters.contains d then lettersOff (ls ++ [c]) rest
        else .error (.before (notFlag d .missingColon) rest)

/-- Switch flags on or off. -/
def switch (on : Bool) (letters : List Char) (f : Flags) : Flags :=
  letters.foldl (fun f c => (f.set? on c).getD f) f

/-- A group that starts with flag letters, or with the minus before them. -/
def flagGroup (r : Reading) (opened s : List Char) : Except Problem (Reading × List Char) := do
  let (on, ending) ← if s.head? == some '-' then pure ([], s) else lettersOn [] s
  let f := switch true on r.current.flags
  match ending with
  | ')' :: rest =>
    if r.outer.isEmpty && r.current.alternatives.isEmpty && r.current.items.isEmpty then
      return ({ r with current := { r.current with flags := f } }, rest)
    else .error (.before .lateFlags opened)
  | sign :: rest =>
    if on.contains 't' then .error (.before .templateFlagOn ending)
    if sign = ':' then return (r.enter .plain f opened, rest)
    match rest with
    | [] => .error (.before .missingFlag [])
    | c :: _ =>
      if !flagLetters.contains c then .error (.before (notFlag c .missingFlag) rest)
      let (off, ending) ← lettersOff [] rest
      if off.contains 't' then .error (.before .templateFlagOff ending)
      if on.any off.contains then .error (.before .flagOnAndOff ending)
      return (r.enter .plain (switch false off f) opened, ending.drop 1)
  | [] => .error (.before .missingFlagEnd [])

/-- The condition of a conditional group. -/
def conditionalGroup (r : Reading) (opened s : List Char) :
    Except Problem (Reading × List Char) := do
  let (name, rest) ← readName ')' s
  if isIdentifier name then
    match r.names.find? (·.1 == name) with
    | some (_, n) =>
      r.checkBehind n rest
      return (r.enter (.conditional n) r.current.flags opened, rest)
    | none => .error (.before (.unknownName name) s)
  else match readInteger name with
    | .ok (.ofNat 0) => .error (.before .badGroupNumber s)
    | .ok (.ofNat n) =>
      r.checkBehind n rest
      let r := r.enter (.conditional n) r.current.flags opened
      return ({ r with asked := r.asked ++ [(n, s.length)] }, rest)
    | _ => .error (.before (.badName name) s)

/-- Open a capturing group, perhaps with a name. -/
def capturingGroup (r : Reading) (opened : List Char) (name : Option (List Char)) : Reading :=
  let n := r.groups + 1
  let r := r.enter (.capturing n) r.current.flags opened
  { r with groups := n, names := r.names ++ (name.map fun x => (x, n)).toList }

/-- Recall a group by its number; `place` is the text from the recall on, `behind` the text behind
    it. -/
def recallGroup (r : Reading) (n : Nat) (place behind : List Char) : Except Problem Reading := do
  if r.isOpen n then .error (.before .openGroup place)
  r.checkBehind n behind
  return r.push .part (.recall r.current.flags.caseless n)

/-- A group with a question mark behind its parenthesis. -/
def markedGroup (r : Reading) (opened s : List Char) : Except Problem (Reading × List Char) := do
  let flags := r.current.flags
  match s with
  | [] => .error (.before .unexpectedEnd [])
  | ':' :: rest => return (r.enter .plain flags opened, rest)
  | '>' :: rest => return (r.enter .atomic flags opened, rest)
  | '=' :: rest => return (r.enter (.look false false) flags opened, rest)
  | '!' :: rest => return (r.enter (.look false true) flags opened, rest)
  | '<' :: '=' :: rest => return (r.enter (.look true false) flags opened, rest)
  | '<' :: '!' :: rest => return (r.enter (.look true true) flags opened, rest)
  | ['<'] => .error (.before .unexpectedEnd [])
  | '<' :: rest => unknown ['?', '<'] rest
  | '#' :: rest =>
    match rest.dropWhile (· ≠ ')') with
    | [] => .error (.before .unterminatedComment opened)
    | _ :: rest => return (r, rest)
  | '(' :: rest => conditionalGroup r opened rest
  | 'P' :: '<' :: rest =>
    let (name, rest') ← readName '>' rest
    if !isIdentifier name then .error (.before (.badName name) rest)
    else match r.names.find? (·.1 == name) with
      | some (_, n) => .error (.before (.nameTaken name (r.groups + 1) n) rest)
      | none => return (capturingGroup r opened (some name), rest')
  | 'P' :: '=' :: rest =>
    let (name, rest') ← readName ')' rest
    if !isIdentifier name then .error (.before (.badName name) rest)
    else match r.names.find? (·.1 == name) with
      | none => .error (.before (.unknownName name) rest)
      | some (_, n) => return (← recallGroup r n rest rest', rest')
  | ['P'] => .error (.before .unexpectedEnd [])
  | 'P' :: rest => unknown ['?', 'P'] rest
  | c :: _ =>
    if c = '-' || flagLetters.contains c then flagGroup r opened s
    else unknown ['?'] s
where
  /-- A mark that no group has: an escape counts as a whole. -/
  unknown (lead : List Char) (rest : List Char) : Except Problem (Reading × List Char) :=
    match rest with
    | ['\\'] => .error (.before .escapeAtEnd rest)
    | '\\' :: c :: _ => .error (.before (.unknownExtension (lead ++ ['\\', c])) ('?' :: s))
    | _ => .error (.before (.unknownExtension (lead ++ rest.take 1)) ('?' :: s))

/-- What a closing parenthesis makes of the innermost group. -/
def closeGroup (r : Reading) (outer : Frame) (more : List Frame) (rest : List Char) :
    Except Problem Reading :=
  let inner := r.current
  let width := fixedWidth? r.widths inner.body
  let back (p : Pattern) : Reading := { r with current := outer.push .part p, outer := more }
  match inner.kind with
  | .plain => .ok (back inner.body)
  | .capturing n =>
    .ok { back (.capture n inner.body) with widths := (n, width) :: r.widths }
  | .atomic => .ok (back (.atomic inner.body))
  | .look false negated => .ok (back (.ahead negated inner.body))
  | .look true negated =>
    let r' := back (.behind negated (width.getD 0) inner.body)
    .ok { r' with unfixed := r.unfixed || width.isNone }
  | .conditional n =>
    match inner.alternatives with
    | [] => .ok (back (.ifCaptured n inner.branch .empty))
    | [yes] => .ok (back (.ifCaptured n yes inner.branch))
    | _ => .error (.before .tooManyBranches (')' :: rest))

/-! ## Steps -/

/-- An escape outside a class, after its backslash. -/
def readEscape (r : Reading) (c : Char) (rest : List Char) :
    Except Problem (Reading × List Char) := do
  let f := r.current.flags
  let place := '\\' :: c :: rest
  let single (x : Char) (rest : List Char) := (r.push .part (.one (f.charSet x)), rest)
  match f.propertySet? c with
  | some set => return (r.push .part (.one set), rest)
  | none =>
    if c = 'A' then return (r.push .place .textStart, rest)
    else if c = 'Z' then return (r.push .place .textEnd, rest)
    else if c = 'b' then return (r.push .place (.wordEdge false), rest)
    else if c = 'B' then return (r.push .place (.wordEdge true), rest)
    else match controlEscape? c with
    | some x => return single x rest
    | none =>
      match hexWidth? c with
      | some width =>
        let (x, rest) ← hexEscape c width rest
        return single x rest
      | none =>
        if c = '0' then
          let ds := (rest.take 2).takeWhile isOctal
          return single (Char.ofNat (octalValue ds)) (rest.drop ds.length)
        else if c.isDigit then
          let ds := c :: (rest.take 1).takeWhile Char.isDigit
          let octal := c :: (rest.take 2).takeWhile isOctal
          if octal.length = 3 && isOctal c then
            if octalValue octal > 0o377 then
              .error (.before (.octalTooLarge ('\\' :: octal)) place)
            else return single (Char.ofNat (octalValue octal)) (rest.drop 2)
          else
            let n := valueOf (ds.map fun c => c.toNat - 0x30)
            if n ≤ r.groups then
              let behind := rest.drop (ds.length - 1)
              return (← recallGroup r n place behind, behind)
            else .error (.before (.noSuchGroup n) (c :: rest))
        else if c.isAlpha then .error (.before (.badEscape ['\\', c]) place)
        else return single c rest

/-- Repeat the last item. -/
def quantify (r : Reading) (min : Nat) (max : Option Nat) (place rest : List Char) :
    Except Problem (Reading × List Char) :=
  match r.current.items with
  | [] => .error (.before .nothingToRepeat place)
  | (.place, _) :: _ => .error (.before .nothingToRepeat place)
  | (.repetition, _) :: _ => .error (.before .multipleRepeat place)
  | (.part, p) :: items =>
    let (mode, rest) := readMode rest
    let item := (ItemKind.repetition, repeated mode min max p)
    .ok ({ r with current := { r.current with items := item :: items } }, rest)

/-- Read one token. -/
def step (r : Reading) (c : Char) (rest : List Char) : Except Problem (Reading × List Char) := do
  let f := r.current.flags
  if rest = ['\\'] && c ≠ '\\' then .error (.before .escapeAtEnd ['\\'])
  else if f.verbose && (" \t\n\r\x0b\x0c".toList.contains c) then return (r, rest)
  else if f.verbose && c = '#' then
    return (r, (rest.dropWhile (· ≠ '\n')).drop 1)
  else match c with
  | '\\' =>
    match rest with
    | [] => .error (.before .escapeAtEnd ['\\'])
    | e :: rest => readEscape r e rest
  | '[' =>
    let (set, rest) ← readClass f rest
    return (r.push .part (.one set), rest)
  | '.' => return (r.push .part (.one f.pointSet), rest)
  | '^' => return (r.push .place (if f.multiline then .lineStart else .textStart), rest)
  | '$' => return (r.push .place (if f.multiline then .lineEnd else .lastLineEnd), rest)
  | '*' => quantify r 0 none (c :: rest) rest
  | '+' => quantify r 1 none (c :: rest) rest
  | '?' => quantify r 0 (some 1) (c :: rest) rest
  | '\x7b' =>
    match braceBounds rest with
    | none => return (r.push .part (.one (f.charSet c)), rest)
    | some ((min, max), rest') =>
      if max.any (· < min) then .error (.before .repeatBounds rest)
      else quantify r min max (c :: rest) rest'
  | '|' =>
    let alternatives := r.current.branch :: r.current.alternatives
    return ({ r with current := { r.current with alternatives, items := [] } }, rest)
  | ')' =>
    match r.outer with
    | [] => .error (.before .unbalancedParenthesis (c :: rest))
    | outer :: more => return (← closeGroup r outer more rest, rest)
  | '(' =>
    match rest with
    | '?' :: rest => markedGroup r (c :: '?' :: rest) rest
    | _ => return (capturingGroup r (c :: rest) none, rest)
  | c => return (r.push .part (.one (f.charSet c)), rest)

/-- Read tokens to the end of the text. -/
def readAll : Nat → Reading → List Char → Except Problem Reading
  | 0, r, _ => .ok r
  | fuel + 1, r, s =>
    match s with
    | [] => .ok r
    | c :: rest => do
      let (r, rest) ← step r c rest
      readAll fuel r rest

/-- Nothing read yet. -/
def nothing (f : Flags) : Reading := ⟨⟨.plain, [], f, [], [], 0⟩, [], 0, [], [], [], false⟩

/-- An expression ready for searching: the pattern and the number of its captures. -/
structure Compiled where
  pattern : Pattern
  groups : Nat

/-- Read an expression. -/
def compile (f : Flags) (s : List Char) : Except Problem Compiled := do
  let r ← readAll (s.length + 1) (nothing f) s
  match r.outer with
  | _ :: _ => .error (.before .unterminatedGroup r.current.opened)
  | [] =>
    match r.asked.find? fun (n, _) => n > r.groups with
    | some (n, unread) => .error ⟨.noSuchGroup n, some unread⟩
    | none =>
      if r.unfixed then .error ⟨.variableWidth, none⟩
      else return ⟨r.current.body, r.groups⟩

end StreamResolver.Expression
