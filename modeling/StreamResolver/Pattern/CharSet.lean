/-
  Sets of characters.

  The atoms of an expression are tests on one character: a character, a range, a Unicode property,
  and what is built from these by complement, union and by disregarding case.  `has` is the test.
-/
import StreamResolver.Text.LetterCase
import StreamResolver.Text.Property

namespace StreamResolver

/-- A set of characters. -/
inductive CharSet where
  /-- Every character. -/
  | any
  | char (c : Char)
  /-- The characters from `lo` to `hi`, both included. -/
  | range (lo hi : Char)
  /-- Letters, numbers and the underscore. -/
  | word
  /-- Decimal digits. -/
  | digit
  /-- White space. -/
  | blank
  | compl (s : CharSet)
  | union (sets : List CharSet)
  /-- The characters with a caseless variant in the set. -/
  | caseless (s : CharSet)
  deriving Repr

namespace CharSet

mutual
/-- Whether a character is in the set. -/
def has : CharSet → Char → Bool
  | .any, _ => true
  | .char c, x => x == c
  | .range lo hi, x => lo ≤ x && x ≤ hi
  | .word, x => Text.isWord x
  | .digit, x => Text.isDigit x
  | .blank, x => Text.isBlank x
  | .compl s, x => !s.has x
  | .union sets, x => anyHas sets x
  | .caseless s, x => (Text.caseVariants x).any s.has

/-- Whether a character is in one of the sets. -/
def anyHas : List CharSet → Char → Bool
  | [], _ => false
  | s :: rest, x => s.has x || anyHas rest x
end

/-- The set of the given characters. -/
def ofChars (cs : List Char) : CharSet := .union (cs.map .char)

/-- All characters but the given ones. -/
def noneOf (cs : List Char) : CharSet := .compl (ofChars cs)

/-- Every character but the line feed. -/
def notNewline : CharSet := .compl (.char '\n')

theorem anyHas_eq (sets : List CharSet) (x : Char) : anyHas sets x = sets.any (·.has x) := by
  induction sets with
  | nil => rfl
  | cons s rest ih => simp [anyHas, ih]

@[simp] theorem has_char (c x : Char) : (CharSet.char c).has x = (x == c) := by
  simp [has]

@[simp] theorem has_compl (s : CharSet) (x : Char) : s.compl.has x = !s.has x := by
  simp [has]

@[simp] theorem has_union (sets : List CharSet) (x : Char) :
    (CharSet.union sets).has x = sets.any (·.has x) := by
  simp [has, anyHas_eq]

/-- The set of the given characters holds exactly these. -/
@[simp] theorem has_ofChars (cs : List Char) (x : Char) : (ofChars cs).has x = cs.contains x := by
  rw [ofChars, has_union]
  induction cs with
  | nil => rfl
  | cons c rest ih =>
    rw [List.map_cons, List.any_cons, ih, has_char, List.contains_cons]

end CharSet

end StreamResolver
