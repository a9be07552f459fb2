/-
  Expressions and how they match.

  An expression is matched at a place of a text.  Matching is ordered: alternatives are tried from
  left to right, a greedy repetition tries one more round before it goes on, a lazy one goes on
  before it tries one more round, and the first way through the whole expression is the match.

  `Pattern.run p k s` says that with a continuation: the ways in which `p` matches at the state `s`
  are tried in their order, and the first one on which `k` succeeds is the answer.  The recursion is
  on the expression; a repetition is a recursion on the number of rounds left, for which the length
  of the text is enough, because a round that consumes nothing is the last one.

    * `one`       one character of a set;
    * `span`      a run of characters of a set, as long (greedy) or as short (lazy) as possible;
    * `loop`      rounds of an expression; a round that consumes nothing ends the loop;
    * `capture`   remembers what its part matched, for `recall` and for the caller;
    * `ahead`, `behind`  look without consuming;
    * `atomic`    keeps only the first way of its part.
-/
import StreamResolver.Pattern.CharSet

namespace StreamResolver

/-- An expression. -/
inductive Pattern where
  | empty
  | one (set : CharSet)
  /-- Between `min` and `max` characters of the set. -/
  | span (lazy : Bool) (min : Nat) (max : Option Nat) (set : CharSet)
  | seq (first second : Pattern)
  | alt (first second : Pattern)
  | capture (group : Nat) (part : Pattern)
  /-- The text of a capture once more. -/
  | recall (caseless : Bool) (group : Nat)
  /-- Between `min` and `max` rounds of the part. -/
  | loop (lazy : Bool) (min : Nat) (max : Option Nat) (part : Pattern)
  /-- The part matches from here on, or (`negated`) does not. -/
  | ahead (negated : Bool) (part : Pattern)
  /-- The part matches the `width` characters before, or (`negated`) does not. -/
  | behind (negated : Bool) (width : Nat) (part : Pattern)
  | atomic (part : Pattern)
  /-- One of two parts, depending on whether a capture is set. -/
  | ifCaptured (group : Nat) (yes no : Pattern)
  | textStart
  | textEnd
  /-- The end of the text, or the place before a line feed that ends it. -/
  | lastLineEnd
  | lineStart
  | lineEnd
  /-- A place between a word character and another one (`negated`: any other place of a text that is
      not empty). -/
  | wordEdge (negated : Bool)
  deriving Repr

namespace Pattern

/-! ## Places in a text -/

/-- The captured texts, the latest first. -/
abbrev Captures := List (Nat × List Char)

/-- A place in a text, with what has been captured on the way: `before` is the text before the place,
    backwards, and `pos` its length. -/
structure Place where
  pos : Nat
  before : List Char
  after : List Char
  captures : Captures
  deriving DecidableEq, Repr

namespace Place

/-- The place at the start of a text. -/
def start (text : List Char) : Place := ⟨0, [], text, []⟩

/-- The place one character further, if there is one. -/
def next? (s : Place) : Option (Char × Place) :=
  match s.after with
  | [] => none
  | c :: rest => some (c, ⟨s.pos + 1, c :: s.before, rest, s.captures⟩)

/-- The text between two places of which the second is not before the first. -/
def textTo (s t : Place) : List Char := s.after.take (t.pos - s.pos)

/-- The place `n` characters back, if there are that many. -/
def back? : Nat → Place → Option Place
  | 0, s => some s
  | n + 1, s =>
    match s.before with
    | [] => none
    | c :: rest => back? n ⟨s.pos - 1, rest, c :: s.after, s.captures⟩

/-- Remember a captured text. -/
def record (s : Place) (group : Nat) (text : List Char) : Place :=
  { s with captures := (group, text) :: s.captures }

/-- The latest text of a capture. -/
def captured? (s : Place) (group : Nat) : Option (List Char) :=
  (s.captures.find? (·.1 == group)).map (·.2)

/-- Whether the place is between a word character and another one. -/
def atWordEdge (s : Place) : Bool :=
  (s.before.head?.any Text.isWord) != (s.after.head?.any Text.isWord)

end Place

/-! ## Matching -/

/-- What happens after a part has matched: the final place, if the rest succeeds from here. -/
abbrev Next := Place → Option Place

/-- Match the given characters one by one. -/
def literally (same : Char → Char → Bool) : List Char → Next → Next
  | [], k, s => k s
  | c :: rest, k, s =>
    match s.next? with
    | none => none
    | some (x, s) => if same c x then literally same rest k s else none

/-- The first of two ways that succeeds. -/
def orElse (first : Option Place) (second : Unit → Option Place) : Option Place :=
  match first with
  | some t => some t
  | none => second ()

/-- Skip exactly `n` characters of a set. -/
def skip (set : CharSet) : Nat → Next → Next
  | 0, k, s => k s
  | n + 1, k, s =>
    match s.next? with
    | none => none
    | some (x, s) => if set.has x then skip set n k s else none

/-- The places after 0, 1, 2, … characters of a set, at most `n` of them, the furthest first, in front
    of the places in `found`. -/
def reach (set : CharSet) : Nat → Place → List Place → List Place
  | 0, s, found => s :: found
  | n + 1, s, found =>
    match s.next? with
    | none => s :: found
    | some (x, t) => if set.has x then reach set n t (s :: found) else s :: found

/-- As few characters of a set as possible, at most `n`. -/
def creep (set : CharSet) : Nat → Next → Next
  | 0, k, s => k s
  | n + 1, k, s =>
    orElse (k s) fun _ =>
      match s.next? with
      | none => none
      | some (x, t) => if set.has x then creep set n k t else none

/-- Exactly `n` rounds of a part. -/
def rounds (part : Next → Next) : Nat → Next → Next
  | 0, k, s => k s
  | n + 1, k, s => part (rounds part n k) s

/-- At most `n` further rounds of a part; `last` is where the last round started, and a round that
    ends there was the last one. -/
def further (lazy : Bool) (part : Next → Next) : Nat → Option Nat → Next → Next
  | 0, _, k, s => k s
  | n + 1, last, k, s =>
    if last = some s.pos then k s
    else if lazy then
      orElse (k s) fun _ => part (further lazy part n (some s.pos) k) s
    else
      orElse (part (further lazy part n (some s.pos) k) s) fun _ => k s

/-- How many optional rounds there are, where `bound` is enough for a loop without a limit. -/
def optional (bound min : Nat) : Option Nat → Nat
  | some max => max - min
  | none => bound

/-- Try the ways in which the expression matches at a place, in order, until the rest succeeds.
    `bound` is at least two more than the length of the text. -/
def run (bound : Nat) : Pattern → Next → Next
  | .empty, k, s => k s
  | .one set, k, s =>
    match s.next? with
    | none => none
    | some (x, s) => if set.has x then k s else none
  | .span lazy min max set, k, s =>
    skip set min (fun s =>
      if lazy then creep set (optional bound min max) k s
      else (reach set (optional bound min max) s []).findSome? k) s
  | .seq p q, k, s => run bound p (run bound q k) s
  | .alt p q, k, s => orElse (run bound p k s) fun _ => run bound q k s
  | .capture n p, k, s => run bound p (fun t => k (t.record n (s.textTo t))) s
  | .recall caseless n, k, s =>
    match s.captured? n with
    | none => none
    | some text =>
      literally (fun c x => if caseless then (Text.caseVariants x).contains c else c == x) text k s
  | .loop lazy min max p, k, s =>
    rounds (run bound p) min (further lazy (run bound p) (optional bound min max) none k) s
  | .ahead negated p, k, s =>
    match run bound p some s with
    | none => if negated then k s else none
    | some t => if negated then none else k { s with captures := t.captures }
  | .behind negated width p, k, s =>
    match (s.back? width).bind (run bound p some) with
    | none => if negated then k s else none
    | some t => if negated then none else k { s with captures := t.captures }
  | .atomic p, k, s =>
    match run bound p some s with
    | none => none
    | some t => k t
  | .ifCaptured n p q, k, s =>
    if (s.captured? n).isSome then run bound p k s else run bound q k s
  | .textStart, k, s => if s.before.isEmpty then k s else none
  | .textEnd, k, s => if s.after.isEmpty then k s else none
  | .lastLineEnd, k, s => if s.after.isEmpty || s.after == ['\n'] then k s else none
  | .lineStart, k, s => if s.before.isEmpty || s.before.head? == some '\n' then k s else none
  | .lineEnd, k, s => if s.after.isEmpty || s.after.head? == some '\n' then k s else none
  | .wordEdge negated, k, s =>
    if s.atWordEdge != negated && !(s.before.isEmpty && s.after.isEmpty) then k s else none

/-! ## Building expressions -/

/-- The parts one after another. -/
def sequence : List Pattern → Pattern
  | [] => .empty
  | [p] => p
  | p :: rest => .seq p (sequence rest)

/-- One of the parts, tried in order. -/
def anyOf : List Pattern → Pattern
  | [] => .alt (.one (.union [])) (.one (.union []))
  | [p] => p
  | p :: rest => .alt p (anyOf rest)

/-- The given text, literally. -/
def literal (text : List Char) : Pattern := sequence (text.map fun c => .one (.char c))

/-- The given text, literally. -/
def word (text : String) : Pattern := literal text.toList

/-- Any number of characters of a set, as many as possible. -/
def many (set : CharSet) : Pattern := .span false 0 none set

/-- One or more characters of a set, as many as possible. -/
def some1 (set : CharSet) : Pattern := .span false 1 none set

/-- The part or nothing, the part preferred. -/
def opt (p : Pattern) : Pattern := .loop false 0 (some 1) p

end Pattern

end StreamResolver
