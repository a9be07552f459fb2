/-
  Searching a text for an expression.

  `search?` gives the leftmost match: at each place from the start of the text on, the first way in
  which the expression matches.  `cuts` goes on behind a match for the next one and gives every match
  together with the text that was passed over before it, and the text behind the last one; so the
  whole text can be put together again from the parts.  A match of the empty text is not found twice
  at one place.
-/
import StreamResolver.Pattern.Basic

namespace StreamResolver.Pattern

/-- A match. -/
structure Found where
  /-- What the whole expression matched. -/
  text : List Char
  /-- The place behind the match, with the captures. -/
  stop : Place
  deriving Repr

namespace Found

/-- The text of a capture; capture 0 is the whole match. -/
def group? (m : Found) (n : Nat) : Option (List Char) :=
  if n = 0 then some m.text else m.stop.captured? n

end Found

/-- Match the expression at a place; `advance` demands that the match is not empty. -/
def matchAt? (bound : Nat) (p : Pattern) (advance : Bool) (s : Place) : Option Found :=
  (p.run bound (fun t => if advance && t.pos == s.pos then none else some t) s).map fun t =>
    ⟨s.textTo t, t⟩

/-- The leftmost match from a place on, with the text passed over before it.  `rest` is the text
    behind the place. -/
def searchFrom (bound : Nat) (p : Pattern) (advance : Bool) :
    List Char → Nat → List Char → List Char → Option (List Char × Found)
  | [], pos, before, passed =>
    (matchAt? bound p advance ⟨pos, before, [], []⟩).map fun m => (passed.reverse, m)
  | c :: rest, pos, before, passed =>
    match matchAt? bound p advance ⟨pos, before, c :: rest, []⟩ with
    | some m => some (passed.reverse, m)
    | none => searchFrom bound p false rest (pos + 1) (c :: before) (c :: passed)

/-- The bound for the rounds of a loop in a text. -/
def boundFor (text : List Char) : Nat := text.length + 2

/-- The leftmost match in a text. -/
def search? (p : Pattern) (text : List Char) : Option Found :=
  (searchFrom (boundFor text) p false text 0 [] []).map (·.2)

/-- Whether the expression matches somewhere in a text. -/
def occursIn (p : Pattern) (text : List Char) : Bool := (p.search? text).isSome

/-- The matches from a place on, each with the text passed over before it, and the text behind the
    last one; `fuel` bounds their number. -/
def cutsFrom (bound : Nat) (p : Pattern) :
    Nat → Bool → Place → List (List Char × Found) × List Char
  | 0, _, s => ([], s.after)
  | fuel + 1, advance, s =>
    match searchFrom bound p advance s.after s.pos s.before [] with
    | none => ([], s.after)
    | some (passed, m) =>
      let (more, tail) := cutsFrom bound p fuel m.text.isEmpty { m.stop with captures := [] }
      ((passed, m) :: more, tail)

/-- All matches in a text, each with the text passed over before it, and the text behind the last
    one. -/
def cuts (p : Pattern) (text : List Char) : List (List Char × Found) × List Char :=
  cutsFrom (boundFor text) p (2 * text.length + 2) false (.start text)

/-- All matches in a text. -/
def findAll (p : Pattern) (text : List Char) : List Found := (p.cuts text).1.map (·.2)

/-- Replace every match. -/
def replace (p : Pattern) (new : Found → List Char) (text : List Char) : List Char :=
  let (parts, tail) := p.cuts text
  parts.flatMap (fun (passed, m) => passed ++ new m) ++ tail

end StreamResolver.Pattern
