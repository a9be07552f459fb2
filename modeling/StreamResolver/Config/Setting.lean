/-
  Reading single settings.

  A setting is given as whatever value a layer holds, and each kind of setting accepts more than its own
  values: a number may be written as a text, a truth value as one of a few words or as 0 or 1, an
  integer as a number without a fraction.  A text is accepted for what it says only as a whole.

  A value that is not accepted is refused with a cause; a problem is a cause and the path of the setting.
  Settings are checked independently of each other, so all problems of a configuration are reported, in
  the order of the settings.

  Statement: `apply_eq_ok_iff`, checks that are combined succeed exactly when both do.
-/
import StreamResolver.Value.Basic
import StreamResolver.Number.Reading

namespace StreamResolver.Config

open Text

/-! ## Problems -/

/-- Why a value is refused for a setting. -/
inductive Refusal where
  | notText
  | notNumber
  /-- A text that is no number. -/
  | unreadableNumber
  | notInteger
  /-- A text that is no integer. -/
  | unreadableInteger
  | integerTooLong
  | fractional
  | notFinite
  | notTruth
  /-- A text or number that stands for no truth value. -/
  | unreadableTruth
  | notOneOf (allowed : List String)
  /-- No object where one is described by the named group of settings. -/
  | notGroup (group : String)
  /-- The value is of the right kind and breaks a rule. -/
  | breaksRule (rule : String)
  deriving DecidableEq, Repr

/-- The alternatives in quotes, with `or` before the last one. -/
def alternatives : List String → String
  | [] => ""
  | [a] => "'" ++ a ++ "'"
  | [a, b] => "'" ++ a ++ "' or '" ++ b ++ "'"
  | a :: rest => "'" ++ a ++ "', " ++ alternatives rest

namespace Refusal

/-- The short name of a cause. -/
def code : Refusal → String
  | .notText => "string_type"
  | .notNumber => "float_type"
  | .unreadableNumber => "float_parsing"
  | .notInteger => "int_type"
  | .unreadableInteger => "int_parsing"
  | .integerTooLong => "int_parsing_size"
  | .fractional => "int_from_float"
  | .notFinite => "finite_number"
  | .notTruth => "bool_type"
  | .unreadableTruth => "bool_parsing"
  | .notOneOf _ => "literal_error"
  | .notGroup _ => "model_type"
  | .breaksRule _ => "value_error"

/-- The wording of a cause. -/
def message : Refusal → String
  | .notText => "Input should be a valid string"
  | .notNumber => "Input should be a valid number"
  | .unreadableNumber => "Input should be a valid number, unable to parse string as a number"
  | .notInteger => "Input should be a valid integer"
  | .unreadableInteger => "Input should be a valid integer, unable to parse string as an integer"
  | .integerTooLong => "Unable to parse input string as an integer, exceeded maximum size"
  | .fractional => "Input should be a valid integer, got a number with a fractional part"
  | .notFinite => "Input should be a finite number"
  | .notTruth => "Input should be a valid boolean"
  | .unreadableTruth => "Input should be a valid boolean, unable to interpret input"
  | .notOneOf allowed => "Input should be " ++ alternatives allowed
  | .notGroup group => "Input should be a valid dictionary or instance of " ++ group
  | .breaksRule rule => "Value error, " ++ rule

end Refusal

/-- A refused setting. -/
structure Problem where
  path : List String
  refusal : Refusal
  deriving DecidableEq, Repr

/-- A value, or the problems that stand against it. -/
abbrev Checked (α : Type) := Except (List Problem) α

namespace Checked

variable {α β : Type}

/-- A value that needs no check. -/
def value (a : α) : Checked α := .ok a

/-- Give a checked value to a checked function; the problems of both are kept, in order. -/
def apply (f : Checked (α → β)) (a : Checked α) : Checked β :=
  match f, a with
  | .ok f, .ok a => .ok (f a)
  | .ok _, .error ps => .error ps
  | .error ps, .ok _ => .error ps
  | .error ps, .error qs => .error (ps ++ qs)

theorem apply_eq_ok_iff (f : Checked (α → β)) (a : Checked α) (b : β) :
    f.apply a = .ok b ↔ ∃ g x, f = .ok g ∧ a = .ok x ∧ g x = b := by
  cases f <;> cases a <;> simp [apply]

end Checked

/-! ## Kinds of settings -/

namespace Setting

/-- A text. -/
def text : Value → Except Refusal String
  | .str s => .ok s
  | _ => .error .notText

/-- One of a few values that are given by their words. -/
def oneOf {α : Type} (all : List α) (word : α → String) (v : Value) : Except Refusal α :=
  match v with
  | .str s =>
    match all.find? (word · == s) with
    | some a => .ok a
    | none => .error (.notOneOf (all.map word))
  | _ => .error (.notOneOf (all.map word))

/-- A text without its underscores, if each stands between two other characters. -/
def ungrouped? (s : List Char) : Option (List Char) :=
  if s.head? == some '_' || s.getLast? == some '_' || occurs ['_', '_'] s then none
  else some (s.filter (· != '_'))

/-- A number in ASCII digits; they may be grouped by underscores. -/
def numberOfText (s : List Char) : Except Refusal Binary64 :=
  let read := Binary64.ofText? Binary64.asciiDigit
  match read (stripSpace s) <|> (ungrouped? s).bind read with
  | some x => .ok x
  | none => .error .unreadableNumber

/-- The number that a truth value counts as. -/
def ofTruth (b : Bool) : Int := if b then 1 else 0

/-- A number. -/
def number : Value → Except Refusal Binary64
  | .float x => .ok x
  | .int n =>
    match Binary64.ofInt n with
    | .infinity _ => .error .notNumber
    | x => .ok x
  | .bool b => .ok (.ofInt (ofTruth b))
  | .str s => numberOfText s.toList
  | _ => .error .notNumber

/-- Drop a fraction of zeros. -/
def withoutZeroFraction (s : List Char) : List Char :=
  match cutAt '.' s with
  | (whole, some part) => if part.all (· == '0') then whole else s
  | (_, none) => s

/-- Drop the leading zeros, but for one before the end or a point; what starts with neither a digit nor
    a minus is no integer. -/
def withoutLeadingZeros (s : List Char) : Option (List Char) :=
  match s with
  | '0' :: rest =>
    match rest.dropWhile (· == '0') with
    | [] => some ['0']
    | c :: more =>
      if c == '.' then some ('0' :: c :: more)
      else if c.isDigit || c == '-' then some (c :: more)
      else none
  | c :: _ => if c.isDigit || c == '-' then some s else none
  | [] => none

/-- The digits of an integer and its minus, with all decoration removed. -/
def bareInteger? (s : List Char) : Option (List Char) := do
  let s := stripSpace s
  let s ← match s with
    | '+' :: '-' :: _ => none
    | '+' :: rest => some rest
    | _ => some s
  let s := withoutZeroFraction (← withoutLeadingZeros s)
  return (ungrouped? s).getD s

/-- An integer in ASCII digits. -/
def integerOfText (s : List Char) : Except Refusal Int :=
  match bareInteger? s with
  | none => .error .unreadableInteger
  | some bare =>
    if bare.length > maxDigits then .error .integerTooLong
    else
      let (negative, body) := match bare with
        | '-' :: rest => (true, rest)
        | _ => (false, bare)
      match body.isEmpty, body.mapM Binary64.asciiDigit with
      | false, some ds => .ok (withSign negative (valueOf ds))
      | _, _ => .error .unreadableInteger

/-- The bound, in either direction, of the integers that are read from a number with a point. -/
def integerBound : Int := twoTo 63

/-- An integer given as a number with a point. -/
def integerOfNumber (x : Binary64) : Except Refusal Int :=
  match x, x.toInt? with
  | .finite .., some n =>
    if -integerBound < n && n < integerBound then .ok n else .error .integerTooLong
  | .finite .., none => .error .fractional
  | _, _ => .error .notFinite

/-- An integer. -/
def integer : Value → Except Refusal Int
  | .int n => .ok n
  | .bool b => .ok (ofTruth b)
  | .float x => integerOfNumber x
  | .str s => integerOfText s.toList
  | _ => .error .notInteger

/-- The truth value that an integer stands for. -/
def truthOfInteger (n : Int) : Except Refusal Bool :=
  if n = 0 then .ok false else if n = 1 then .ok true else .error .unreadableTruth

/-- The truth value that a word stands for, in any case. -/
def truthOfText (s : String) : Except Refusal Bool :=
  let word := String.ofList (s.toList.map Char.toLower)
  if ["0", "off", "f", "false", "n", "no"].contains word then .ok false
  else if ["1", "on", "t", "true", "y", "yes"].contains word then .ok true
  else .error .unreadableTruth

/-- A truth value. -/
def truth : Value → Except Refusal Bool
  | .bool b => .ok b
  | .int n => truthOfInteger n
  | .float x =>
    match integerOfNumber x with
    | .ok n => truthOfInteger n
    | .error _ => .error .notTruth
  | .str s => truthOfText s
  | _ => .error .notTruth

example : integerOfText ['+', '0', '0', '4', '.', '0', ' '] = .ok 4 := by rfl
example : integerOfText ['1', '_', '0'] = .ok 10 ∧ integerOfText ['٤'] = .error .unreadableInteger :=
  ⟨rfl, rfl⟩

end Setting

end StreamResolver.Config
