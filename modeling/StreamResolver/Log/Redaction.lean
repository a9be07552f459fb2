/-
  Keeping signatures out of the log.

  Some parameters of a media URL authorise playback.  Their values are masked before an event is
  written: from the sign that opens the parameter and the name on, the value reaches up to the next
  ampersand or blank, and three stars stand for it.  Only the fields that hold URLs are looked at.

  The value that is masked may hold anything but an ampersand or a blank, so a parameter that seems to
  start inside of it is part of it.
-/
import StreamResolver.Text.Basic
import StreamResolver.Value.Basic

namespace StreamResolver.Redaction

open Text

/-- The names of the parameters that are masked. -/
def secretNames : List (List Char) :=
  [['s', 'i', 'g'], ['l', 's', 'i', 'g'],
   ['s', 'i', 'g', 'n', 'a', 't', 'u', 'r', 'e'], ['p', 'o', 't']]

/-- Whether a character opens a parameter. -/
def opens (c : Char) : Bool := c == '?' || c == '&'

/-- Whether a character belongs to a value. -/
def inValue (c : Char) : Bool := c != '&' && !isBlank c

/-- What stands for a value. -/
def stars : List Char := ['*', '*', '*']

/-- The text behind a name and its equals sign, if that is the start of the text and a value follows. -/
def behindName? (s name : List Char) : Option (List Char) :=
  (dropFront? (name ++ ['=']) s).filter fun rest => (rest.head?.map inValue).getD false

/-- The name with its equals sign and the text behind them, if a parameter to be masked starts here. -/
def secret? (s : List Char) : Option (List Char × List Char) :=
  secretNames.findSome? fun name => (behindName? s name).map fun rest => (name ++ ['='], rest)

theorem length_dropFront {front s rest : List Char} (h : dropFront? front s = some rest) :
    s.length = front.length + rest.length := by
  induction front generalizing s with
  | nil => simp [dropFront?] at h; simp [h]
  | cons f front ih =>
    cases s with
    | nil => simp [dropFront?] at h
    | cons c s =>
      simp only [dropFront?] at h
      split at h
      · have := ih h
        simp only [List.length_cons]
        omega
      · simp at h

theorem length_secret {s name rest : List Char} (h : secret? s = some (name, rest)) :
    rest.length ≤ s.length := by
  obtain ⟨n, -, hn⟩ := List.exists_of_findSome?_eq_some h
  obtain ⟨r, hr, he⟩ := Option.map_eq_some_iff.1 hn
  obtain ⟨hd, -⟩ := Option.filter_eq_some_iff.1 hr
  have := length_dropFront hd
  simp only [Prod.mk.injEq] at he
  rw [← he.2]
  omega

/-- A URL with the secret values masked. -/
def mask : List Char → List Char
  | [] => []
  | c :: rest =>
    if opens c then
      match _h : secret? rest with
      | some (name, value) => c :: name ++ stars ++ mask (value.dropWhile inValue)
      | none => c :: mask rest
    else c :: mask rest
termination_by s => s.length
decreasing_by
  · have := length_secret _h
    have := (value.dropWhile_sublist inValue).length_le
    simp only [List.length_cons]
    omega
  · simp
  · simp

/-- The fields that hold URLs. -/
def urlFields : List String := ["url", "stream_url", "player_url"]

/-- A field with the secret values masked if it holds a URL. -/
def maskField (key : String) (v : Value) : Value :=
  match v with
  | .str s => if urlFields.contains key then .ofChars (mask s.toList) else v
  | v => v

/-- The fields of an event with the secret values masked. -/
def maskFields (fields : Keyed Value) : Keyed Value := fields.map fun (k, v) => (k, maskField k v)

end StreamResolver.Redaction
