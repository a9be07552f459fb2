/-
  Reading the body of an answer.

  As a text, a body is decoded in the character set that its media type names, UTF-8 if that is
  unknown, and bad octets are replaced; a media type may also name a coding that gives no text, and
  then only an empty body can be read.  As JSON, the character set is told by the first octets, and
  bad octets make it unreadable.
-/
import StreamResolver.Network.Transport
import StreamResolver.Text.Charset
import StreamResolver.Value.Json

namespace StreamResolver

open Text

namespace Json

/-- The character set of a JSON document, told by a signature or by where its first octets are
    zero. -/
def charsetOf (octets : List Nat) : Charset :=
  if [0, 0, 0xfe, 0xff].isPrefixOf octets || [0xff, 0xfe, 0, 0].isPrefixOf octets then .utf32 none
  else if [0xfe, 0xff].isPrefixOf octets || [0xff, 0xfe].isPrefixOf octets then .utf16 none
  else if Charset.signature8.isPrefixOf octets then .utf8Signed
  else match octets with
    | 0 :: 0 :: _ :: _ :: _ => .utf32 (some .big)
    | 0 :: _ :: _ :: _ :: _ => .utf16 (some .big)
    | _ :: 0 :: 0 :: 0 :: _ => .utf32 (some .little)
    | _ :: 0 :: _ :: _ :: _ => .utf16 (some .little)
    | [0, _] => .utf16 (some .big)
    | [_, 0] => .utf16 (some .little)
    | _ => .utf8

/-- The value of a JSON document. -/
def ofOctets? (octets : List Nat) : Option Value :=
  ((charsetOf octets).decode? octets).bind Value.ofJson?

end Json

namespace Network.Answer

/-- The coding that the media type of the body names, if it is known. -/
def coding? (a : Answer) : Option Coding :=
  a.mediaType.bind fun t => (Charset.nameIn? t.toList).bind Charset.ofName?

/-- Octets as a text of a character set. -/
def decoded (charset : Charset) (body : List Nat) : Except Fault String :=
  if charset.isUnordered body then .error .undecodable
  else .ok (String.ofList (charset.decode body))

/-- The body as a text. -/
def text (a : Answer) : Except Fault String :=
  if a.body.isEmpty then .ok ""
  else match a.coding? with
    | none => decoded .utf8 a.body
    | some (.charset charset) => decoded charset a.body
    | some .octets => .error .notText
    | some .letters => .error .wrongKind
    | some .reserved => .error .undecodable

/-- The body as JSON. -/
def json? (a : Answer) : Option Value := Json.ofOctets? a.body

end Network.Answer

end StreamResolver
