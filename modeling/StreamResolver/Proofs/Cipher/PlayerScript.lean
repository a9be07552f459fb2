/-
  Player scripts.

  A player script as it is served declares a helper object, whose entries are functions on a list
  of characters, and a transform function that calls them one after another; a last function,
  which reads the parameter `n`, calls the transform function by its name:

      var H={m:function(a){…},…};
      var F=function(a){a=a.split("");H.m(a,3);H["m"](a,5);return a.join("")};
      g.z=function(a){var b;a.D&&(b=a.get("n"))&&(b=F(b),a.set("n",b))};

  `PlayerScript` is such a script with all that varies: the names, the functions of the helper,
  each of one of five shapes, and the calls.  `PlayerScript.text` writes it down, and
  `PlayerScript.decode` is what it does to a text.
-/
import StreamResolver.Cipher.Operation
import StreamResolver.Text.Numeral

namespace StreamResolver.Cipher

open Text

/-! ## Identifiers -/

/-- Letters and digits of ASCII, the underscore and the dollar sign. -/
def isIdentChar (c : Char) : Bool := c.isAlphanum || c == '_' || c == '$'

/-- An identifier of a script. -/
structure Ident where
  chars : List Char
  chars_ne : chars ≠ []
  all_ident : ∀ c ∈ chars, isIdentChar c = true
  deriving DecidableEq

/-- The identifier with the given characters. -/
def Ident.of (chars : List Char) (h : chars ≠ [] ∧ chars.all isIdentChar = true) : Ident :=
  ⟨chars, h.1, List.all_eq_true.mp h.2⟩

/-! ## The helper -/

/-- The shapes of the helper's functions. -/
inductive Shape where
  | reverse
  | dropFront
  | swapByVariable
  | swapBySplices
  | rotate
  deriving DecidableEq, Repr

namespace Shape

/-- The function as it is written. -/
def text : Shape → String
  | .reverse => "function(a)\x7ba.reverse()\x7d"
  | .dropFront => "function(a,b)\x7ba.splice(0,b)\x7d"
  | .swapByVariable => "function(a,b)\x7bvar c=a[0];a[0]=a[b%a.length];a[b%a.length]=c\x7d"
  | .swapBySplices => "function(a,b)\x7ba.splice(0,1,a.splice(b,1,a[0])[0])\x7d"
  | .rotate => "function(a,b)\x7bfor(b%=a.length;b--;)a.push(a.shift())\x7d"

variable {α : Type}

/-- Exchange the first element with the one at an index. -/
def exchange (i : Nat) (s : List α) : List α :=
  match s[0]?, s[i]? with
  | some x, some y => (s.set i x).set 0 y
  | _, _ => s

/-- Move the first element to the end, so many times. -/
def moveFirst : Nat → List α → List α
  | 0, s => s
  | n + 1, s => moveFirst n (s.drop 1 ++ s.take 1)

/-- What the function is for, given its second argument: positions and distances count modulo the
    length of the list. -/
def effect (k : Nat) (s : List α) : Shape → List α
  | .reverse => s.reverse
  | .dropFront => s.drop k
  | .swapByVariable | .swapBySplices => exchange (k % s.length) s
  | .rotate => moveFirst (k % s.length) s

end Shape

/-- A function of the helper. -/
structure HelperFunction where
  name : Ident
  shape : Shape
  /-- Whether a line feed stands in front of it, behind the comma. -/
  onNewLine : Bool
  deriving DecidableEq

namespace HelperFunction

def text (f : HelperFunction) : List Char := f.name.chars ++ ':' :: f.shape.text.toList

/-- What stands between the function and the one before it. -/
def separator (f : HelperFunction) : List Char := if f.onNewLine then [',', '\n'] else [',']

/-- The functions of a helper behind the first one. -/
def moreText (fs : List HelperFunction) : List Char := fs.flatMap fun f => f.separator ++ f.text

end HelperFunction

/-! ## The calls -/

/-- A call of a helper function. -/
structure HelperCall where
  name : Ident
  /-- The second argument in decimal. -/
  digits : List Char
  digits_ne : digits ≠ []
  all_digits : ∀ c ∈ digits, c.isDigit = true
  short : digits.length ≤ maxDigits
  /-- Whether the name is a text in brackets. -/
  quoted : Bool
  deriving DecidableEq

namespace HelperCall

/-- The call of a name with the given digits. -/
def of (name : Ident) (digits : List Char)
    (h : digits ≠ [] ∧ digits.all Char.isDigit = true ∧ digits.length ≤ maxDigits)
    (quoted : Bool) : HelperCall :=
  ⟨name, digits, h.1, List.all_eq_true.mp h.2.1, h.2.2, quoted⟩

/-- The number that the second argument stands for. -/
def argument (c : HelperCall) : Nat := valueOf (c.digits.map fun d => d.toNat - 0x30)

/-- How the name is reached from the helper. -/
def access (c : HelperCall) : List Char :=
  if c.quoted then '[' :: '"' :: (c.name.chars ++ ['"', ']']) else '.' :: c.name.chars

def text (helper : Ident) (c : HelperCall) : List Char :=
  helper.chars ++ (c.access ++ ('(' :: 'a' :: ',' :: (c.digits ++ [')'])))

end HelperCall

/-! ## The script -/

structure PlayerScript where
  functionName : Ident
  helperName : Ident
  helperName_long : 2 ≤ helperName.chars.length
  functions : List HelperFunction
  functions_ne : functions ≠ []
  distinct : (functions.map HelperFunction.name).Nodup
  calls : List HelperCall
  calls_ne : calls ≠ []

namespace PlayerScript

/-- What stands between the braces of the helper. -/
def helperText (p : PlayerScript) : List Char :=
  match p.functions with
  | [] => []
  | f :: more => f.text ++ HelperFunction.moreText more

/-- The calls with semicolons between them. -/
def callsText (p : PlayerScript) : List Char :=
  joinWith [';'] (p.calls.map (HelperCall.text p.helperName))

/-- The line in front of the calls. -/
def bodyFront : List Char := "a=a.split(\"\")".toList

/-- The line behind the calls. -/
def bodyBack : List Char := "return a.join(\"\")".toList

/-- What stands between the braces of the transform function. -/
def bodyText (p : PlayerScript) : List Char :=
  bodyFront ++ ';' :: (p.callsText ++ ';' :: bodyBack)

/-- The text of the script. -/
def text (p : PlayerScript) : List Char :=
  "var ".toList ++ (p.helperName.chars ++ ("=\x7b".toList ++ (p.helperText ++
    ("\x7d;var ".toList ++ (p.functionName.chars ++ ("=function(a)\x7b".toList ++ (p.bodyText ++
      ("\x7d;g.z=function(a)\x7bvar b;a.D&&(b=a.get(\"n\"))&&(b=".toList ++ (p.functionName.chars ++
        "(b),a.set(\"n\",b))\x7d;".toList)))))))))

/-- What a call does; a call of a name that the helper does not have does nothing. -/
def perform {α : Type} (p : PlayerScript) (s : List α) (c : HelperCall) : List α :=
  match p.functions.find? fun f => f.name = c.name with
  | none => s
  | some f => f.shape.effect c.argument s

/-- What the transform function does to the characters of a text. -/
def decode (p : PlayerScript) (value : String) : String :=
  String.ofList (p.calls.foldl p.perform value.toList)

/-- A script with three functions and three calls, one of them by a text in brackets. -/
def sample : PlayerScript where
  functionName := .of ['G', 'h'] (by decide)
  helperName := .of ['X', 'y'] (by decide)
  helperName_long := by decide
  functions := [
    ⟨.of ['A', 'B'] (by decide), .reverse, false⟩,
    ⟨.of ['c', 'd'] (by decide), .dropFront, true⟩,
    ⟨.of ['$'] (by decide), .swapByVariable, false⟩]
  functions_ne := by simp
  distinct := by decide
  calls := [
    .of (.of ['c', 'd'] (by decide)) ['1'] (by decide) false,
    .of (.of ['A', 'B'] (by decide)) ['4', '5'] (by decide) false,
    .of (.of ['$'] (by decide)) ['2'] (by decide) true]
  calls_ne := by simp

example : String.ofList sample.bodyText =
    "a=a.split(\"\");Xy.cd(a,1);Xy.AB(a,45);Xy[\"$\"](a,2);return a.join(\"\")" := by
  decide +kernel

example : sample.calls.foldl sample.perform ['a', 'b', 'c', 'd', 'e', 'f'] =
    ['d', 'e', 'f', 'c', 'b'] := by decide

end PlayerScript

end StreamResolver.Cipher
