/-
  Cutting texts: trimming, splitting, finding, replacing.

  Texts are lists of characters here; `String` is the type they are stored in.  Each operation is a
  recursion on the list, so a statement about it is an induction on the text:

    * `trim`         drops blanks at both ends, `trimEnd p` the characters of a set at the right end;
    * `splitOn`      cuts at every occurrence of one character and always gives at least one piece;
    * `cutAt`        cuts at the first occurrence of one character;
    * `occurs`       decides whether one text stands somewhere in another;
    * `replaceAll`   replaces every occurrence, from the left, without overlap.

  Statements: `splitOn` is undone by joining with the separator, and no piece holds it; pieces and
  trimmed texts stand in the text that they were cut from.
-/
import StreamResolver.Text.Property

namespace StreamResolver.Text

/-! ## Trimming -/

/-- Drop the characters that satisfy `p` from the right end. -/
def trimEnd (p : Char → Bool) (s : List Char) : List Char := (s.reverse.dropWhile p).reverse

/-- Drop the blanks at both ends. -/
def trim (s : List Char) : List Char := trimEnd isBlank (s.dropWhile isBlank)

/-! ## Splitting and joining -/

/-- The pieces between the occurrences of `sep`. -/
def splitOn (sep : Char) : List Char → List (List Char)
  | [] => [[]]
  | c :: rest =>
    if c = sep then [] :: splitOn sep rest
    else match splitOn sep rest with
      | [] => [[c]]
      | piece :: more => (c :: piece) :: more

/-- The pieces with `sep` between them. -/
def joinWith (sep : List Char) : List (List Char) → List Char
  | [] => []
  | [piece] => piece
  | piece :: more => piece ++ sep ++ joinWith sep more

/-- What stands before the first `sep`, and what stands after it if there is one. -/
def cutAt (sep : Char) : List Char → List Char × Option (List Char)
  | [] => ([], none)
  | c :: rest =>
    if c = sep then ([], some rest)
    else ((c :: (cutAt sep rest).1), (cutAt sep rest).2)

/-- What stands before and after the last `sep`; `none` when there is none. -/
def cutAtLast (sep : Char) (s : List Char) : Option (List Char × List Char) :=
  match cutAt sep s.reverse with
  | (_, none) => none
  | (tail, some front) => some (front.reverse, tail.reverse)

/-- The text with every line end, of whichever of the three forms, written as a line feed. -/
def unifyLineEnds : List Char → List Char
  | [] => []
  | '\r' :: '\n' :: rest => '\n' :: unifyLineEnds rest
  | '\r' :: rest => '\n' :: unifyLineEnds rest
  | c :: rest => c :: unifyLineEnds rest

/-! ## Finding and replacing -/

/-- Whether `needle` stands somewhere in the text. -/
def occurs (needle : List Char) : List Char → Bool
  | [] => needle.isEmpty
  | c :: rest => needle.isPrefixOf (c :: rest) || occurs needle rest

/-- Drop the text `front` from the start; `none` when the text starts otherwise. -/
def dropFront? (front s : List Char) : Option (List Char) :=
  match front, s with
  | [], s => some s
  | _ :: _, [] => none
  | f :: front, c :: s => if f = c then dropFront? front s else none

/-- Replace each occurrence of `c :: old` by `new`: `skip` counts the characters of an occurrence
    that are still to be passed over. -/
def replaceFrom (c : Char) (old new : List Char) : Nat → List Char → List Char
  | _, [] => []
  | skip + 1, _ :: rest => replaceFrom c old new skip rest
  | 0, x :: rest =>
    if (c :: old).isPrefixOf (x :: rest) then new ++ replaceFrom c old new old.length rest
    else x :: replaceFrom c old new 0 rest

/-- Replace every occurrence of a non-empty text, from the left, without overlap. -/
def replaceAll (old new s : List Char) : List Char :=
  match old with
  | [] => s
  | c :: old => replaceFrom c old new 0 s

/-! ## Laws -/

theorem splitOn_ne_nil (sep : Char) (s : List Char) : splitOn sep s ≠ [] := by
  cases s with
  | nil => simp [splitOn]
  | cons c rest =>
    unfold splitOn
    split
    · simp
    · split <;> simp

/-- Joining the pieces gives the text back. -/
theorem joinWith_splitOn (sep : Char) (s : List Char) : joinWith [sep] (splitOn sep s) = s := by
  induction s with
  | nil => rfl
  | cons c rest ih =>
    unfold splitOn
    split
    · next h =>
      subst h
      cases hs : splitOn c rest with
      | nil => exact absurd hs (splitOn_ne_nil c rest)
      | cons piece more => rw [hs] at ih; simp [joinWith, ih]
    · split
      · next hs => exact absurd hs (splitOn_ne_nil sep rest)
      · next piece more hs =>
        rw [hs] at ih
        cases more <;> simp_all [joinWith]

/-- No piece holds the separator. -/
theorem sep_not_mem_of_mem_splitOn {sep : Char} {s piece : List Char}
    (h : piece ∈ splitOn sep s) : sep ∉ piece := by
  induction s generalizing piece with
  | nil => simp [splitOn] at h; simp [h]
  | cons c rest ih =>
    unfold splitOn at h
    split at h
    · rcases List.mem_cons.1 h with rfl | h
      · simp
      · exact ih h
    · next hc =>
      split at h
      · next hs => exact absurd hs (splitOn_ne_nil sep rest)
      · next first more hs =>
        rcases List.mem_cons.1 h with rfl | h
        · have : sep ∉ first := ih (by rw [hs]; exact List.mem_cons_self)
          simp only [List.mem_cons, not_or]
          exact ⟨fun e => hc e.symm, this⟩
        · exact ih (by rw [hs]; exact List.mem_cons_of_mem _ h)

/-- Every piece stands in the joined text. -/
theorem isInfix_joinWith {sep piece : List Char} {pieces : List (List Char)} (h : piece ∈ pieces) :
    piece <:+: joinWith sep pieces := by
  induction pieces with
  | nil => simp at h
  | cons first more ih =>
    rcases List.mem_cons.1 h with rfl | h
    · rcases more with _ | ⟨second, more⟩
      · exact List.infix_refl _
      · exact (List.prefix_append _ _).isInfix.trans (List.prefix_append _ _).isInfix
    · rcases more with _ | ⟨second, more⟩
      · simp at h
      · exact (ih h).trans (List.suffix_append _ _).isInfix

theorem isInfix_of_mem_splitOn {sep : Char} {s piece : List Char} (h : piece ∈ splitOn sep s) :
    piece <:+: s := by
  have hpiece : piece <:+: joinWith [sep] (splitOn sep s) := isInfix_joinWith h
  rw [joinWith_splitOn] at hpiece
  exact hpiece

theorem trimEnd_isPrefix (p : Char → Bool) (s : List Char) : trimEnd p s <+: s := by
  rw [trimEnd, ← List.reverse_suffix, List.reverse_reverse]
  exact List.dropWhile_suffix p

/-- What is left of a trimmed text stands in it. -/
theorem trim_isInfix (s : List Char) : trim s <:+: s :=
  (trimEnd_isPrefix _ _).isInfix.trans (List.dropWhile_suffix _).isInfix

theorem cutAt_fst (sep : Char) (s : List Char) : (cutAt sep s).1 = s.takeWhile (· ≠ sep) := by
  induction s with
  | nil => rfl
  | cons c rest ih => by_cases h : c = sep <;> simp [cutAt, h, ih]

example : splitOn ',' ['a', ',', ',', 'b'] = [['a'], [], ['b']] := by decide
example : replaceAll ['\\', '/'] ['/'] ['\\', '/', 's', '\\', '/'] = ['/', 's', '/'] := by decide

end StreamResolver.Text
