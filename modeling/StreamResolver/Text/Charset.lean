/-
  Character sets of texts that arrive as octets.

  A response may name its character set; the name is looked up without regard to case and
  punctuation.  What is no character becomes the replacement character, so a character set decodes
  everything, with two exceptions: names that mean another kind of coding, and units of several octets
  whose order nothing tells.
-/
import StreamResolver.Text.Basic
import StreamResolver.Text.CodePage
import StreamResolver.Text.Utf8

namespace StreamResolver.Text

/-- The order of the octets of a unit. -/
inductive ByteOrder where
  | little
  | big
  deriving DecidableEq, Repr

/-- A character set. -/
inductive Charset where
  | utf8
  /-- UTF-8 with an optional signature that is dropped. -/
  | utf8Signed
  /-- UTF-16; without an order, it is told by a signature and is little-endian without one. -/
  | utf16 (order : Option ByteOrder)
  | utf32 (order : Option ByteOrder)
  | page (runs : List CodePage.Run)

/-- A coding that is known by a name. -/
inductive Coding where
  | charset (c : Charset)
  /-- A coding of octets as octets. -/
  | octets
  /-- A coding of letters as letters. -/
  | letters
  /-- A coding of single names, or one that is never used. -/
  | reserved

namespace Charset

/-! ## Units of two and four octets -/

/-- The number that octets stand for. -/
def unit (order : ByteOrder) (octets : List Nat) : Nat :=
  let bigFirst := match order with
    | .big => octets
    | .little => octets.reverse
  bigFirst.foldl (fun n b => 0x100 * n + b) 0

/-- The units of `width` octets each, and how many octets are left over. -/
def units (order : ByteOrder) (width : Nat) (octets : List Nat) : List Nat × Nat :=
  let n := octets.length / width
  ((List.range n).map fun i => unit order ((octets.drop (i * width)).take width),
    octets.length - n * width)

/-- Whether a unit is the high half of a pair. -/
def isHigh (u : Nat) : Bool := 0xd800 ≤ u && u < 0xdc00

/-- Whether a unit is the low half of a pair. -/
def isLow (u : Nat) : Bool := 0xdc00 ≤ u && u < 0xe000

/-- The characters of UTF-16 units; a half without its other half is replaced. -/
def joinPairs : List Nat → List Char
  | [] => []
  | [u] => [if isHigh u || isLow u then Utf8.replacement else Char.ofNat u]
  | u :: v :: rest =>
    if isHigh u && isLow v then
      Char.ofNat (0x10000 + (u - 0xd800) * 0x400 + (v - 0xdc00)) :: joinPairs rest
    else (if isHigh u || isLow u then Utf8.replacement else Char.ofNat u) :: joinPairs (v :: rest)

/-- The character of a UTF-32 unit. -/
def wideChar (u : Nat) : Char :=
  if isHigh u || isLow u || u > 0x10ffff then Utf8.replacement else Char.ofNat u

/-- The signature of UTF-8. -/
def signature8 : List Nat := [0xef, 0xbb, 0xbf]

/-- The order of octets and the octets behind a signature of the given width. -/
def orderOf (width : Nat) (given : Option ByteOrder) (octets : List Nat) : ByteOrder × List Nat :=
  match given with
  | some order => (order, octets)
  | none =>
    let first := octets.take width
    if first.length = width && unit .little first = 0xfeff then (.little, octets.drop width)
    else if first.length = width && unit .big first = 0xfeff then (.big, octets.drop width)
    else (.little, octets)

/-- The text of units, with a replacement character for octets that are left over; the high half of a
    pair in front of them shares it. -/
def wide (width : Nat) (chars : List Nat → List Char) (order : Option ByteOrder)
    (octets : List Nat) : List Char :=
  let (order, octets) := orderOf width order octets
  let (us, left) := units order width octets
  let isShared := width == 2 && us.getLast?.any isHigh
  chars us ++ if left = 0 || isShared then [] else [Utf8.replacement]

/-! ## Decoding -/

/-- Whether a unit is there and is no signature. -/
def lacksSignature (width : Nat) (octets : List Nat) : Bool :=
  let first := octets.take width
  first.length == width && unit .little first != 0xfeff && unit .big first != 0xfeff

/-- Whether nothing tells the order of octets: neither the name of the character set nor a
    signature. -/
def isUnordered : Charset → List Nat → Bool
  | .utf16 none, octets => lacksSignature 2 octets
  | .utf32 none, octets => lacksSignature 4 octets
  | _, _ => false

/-- The text of octets in a character set. -/
def decode : Charset → List Nat → List Char
  | .utf8, octets => Utf8.decode octets
  | .utf8Signed, octets =>
    Utf8.decode (if signature8.isPrefixOf octets then octets.drop 3 else octets)
  | .utf16 order, octets => wide 2 joinPairs order octets
  | .utf32 order, octets => wide 4 (List.map wideChar) order octets
  | .page runs, octets => octets.map fun b => (CodePage.char? runs b).getD Utf8.replacement

/-- The octets with the replacement character in place of each half of a pair. -/
def replaceHalves : List Nat → List Nat
  | 0xed :: b :: c :: rest =>
    if 0xa0 ≤ b && b < 0xc0 && Utf8.isContinuation c then
      Utf8.encodeChar Utf8.replacement ++ replaceHalves rest
    else 0xed :: replaceHalves (b :: c :: rest)
  | b :: rest => b :: replaceHalves rest
  | [] => []

/-- The text of octets that are well-formed in UTF-8, where a half of a pair may be written like a
    character. -/
def decodeStrict8? (octets : List Nat) : Option (List Char) :=
  let octets := replaceHalves octets
  let s := Utf8.decode octets
  if Utf8.encode s = octets then some s else none

/-- The text of octets that are well-formed in a character set of units. -/
def decodeWide? (width : Nat) (chars : List Nat → List Char) (order : Option ByteOrder)
    (octets : List Nat) : Option (List Char) :=
  let (order, octets) := orderOf width order octets
  let (us, left) := units order width octets
  if left = 0 && us.all fun u => u ≤ 0x10ffff then some (chars us) else none

/-- The text of octets that are well-formed in a character set. -/
def decode? : Charset → List Nat → Option (List Char)
  | .utf8, octets => decodeStrict8? octets
  | .utf8Signed, octets =>
    decodeStrict8? (if signature8.isPrefixOf octets then octets.drop 3 else octets)
  | .utf16 order, octets => decodeWide? 2 joinPairs order octets
  | .utf32 order, octets => decodeWide? 4 (List.map wideChar) order octets
  | .page runs, octets => octets.mapM (CodePage.char? runs)

/-! ## Names -/

/-- The known character sets by their names. -/
def named : List (List String × Charset) :=
  [(["utf_8", "utf8", "u8", "utf", "utf8_ucs2", "utf8_ucs4", "cp65001"], .utf8),
   (["utf_8_sig"], .utf8Signed),
   (["utf_16", "utf16", "u16"], .utf16 none),
   (["utf_16_le", "utf_16le", "unicodelittleunmarked"], .utf16 (some .little)),
   (["utf_16_be", "utf_16be", "unicodebigunmarked"], .utf16 (some .big)),
   (["utf_32", "utf32", "u32"], .utf32 none),
   (["utf_32_le", "utf_32le"], .utf32 (some .little)),
   (["utf_32_be", "utf_32be"], .utf32 (some .big)),
   (["ascii", "646", "ansi_x3_4_1968", "ansi_x3_4_1986", "cp367", "csascii", "ibm367", "iso646_us",
     "iso_646_irv_1991", "iso_ir_6", "us", "us_ascii"], .page CodePage.ascii),
   (["latin_1", "8859", "cp819", "csisolatin1", "ibm819", "iso8859", "iso8859_1", "iso_8859_1",
     "iso_8859_1_1987", "iso_ir_100", "l1", "latin", "latin1"], .page CodePage.latin1),
   (["iso8859_2", "csisolatin2", "iso_8859_2", "iso_8859_2_1987", "iso_ir_101", "l2", "latin2"],
     .page CodePage.latin2),
   (["iso8859_5", "csisolatincyrillic", "cyrillic", "iso_8859_5", "iso_8859_5_1988", "iso_ir_144"],
     .page CodePage.cyrillic),
   (["iso8859_7", "csisolatingreek", "ecma_118", "elot_928", "greek", "greek8", "iso_8859_7",
     "iso_8859_7_1987", "iso_ir_126"], .page CodePage.greek),
   (["iso8859_9", "csisolatin5", "iso_8859_9", "iso_8859_9_1989", "iso_ir_148", "l5", "latin5"],
     .page CodePage.latin5),
   (["iso8859_15", "iso_8859_15", "l9", "latin9"], .page CodePage.latin9),
   (["cp1250", "1250", "windows_1250"], .page CodePage.windows1250),
   (["cp1251", "1251", "windows_1251"], .page CodePage.windows1251),
   (["cp1252", "1252", "windows_1252"], .page CodePage.windows1252),
   (["koi8_r", "cskoi8r"], .page CodePage.koi8r)]

/-- A name in lower case with one underscore for every run of other characters than letters and
    digits between them. -/
def plainName (s : List Char) : List Char :=
  let words := splitOn '_' (s.map fun c => if c.isAlphanum then c.toLower else '_')
  joinWith ['_'] (words.filter fun w => !w.isEmpty)

/-- The codings that are no character sets by their names. -/
def others : List (List String × Coding) :=
  [(["base64", "base_64", "base64_codec", "bz2", "bz2_codec", "hex", "hex_codec", "quopri",
     "quoted_printable", "quotedprintable", "quopri_codec", "uu", "uu_codec", "zip", "zlib",
     "zlib_codec"], .octets),
   (["rot13", "rot_13"], .letters),
   (["idna", "undefined"], .reserved)]

/-- The coding of a name. -/
def ofName? (name : List Char) : Option Coding :=
  let name := String.ofList (plainName name)
  match named.find? fun e => e.1.contains name with
  | some (_, charset) => some (.charset charset)
  | none => (others.find? fun e => e.1.contains name).map (·.2)

/-! ## The character set that a media type names -/

/-- The parts of a media type between semicolons; `quoted` tells that a quotation mark is open. -/
def parts : Bool → List Char → List (List Char)
  | _, [] => [[]]
  | quoted, c :: rest =>
    if c = ';' && !quoted then [] :: parts quoted rest
    else match parts (if c = '"' then !quoted else quoted) rest with
      | [] => [[c]]
      | part :: more => (c :: part) :: more

/-- A value without the quotation marks or angle brackets around it. -/
def unquote (s : List Char) : List Char :=
  let between (l r : Char) : Bool := s.length > 1 && s.head? == some l && s.getLast? == some r
  if between '"' '"' || between '<' '>' then (s.drop 1).dropLast else s

/-- The name of the character set in a media type. -/
def nameIn? (mediaType : List Char) : Option (List Char) :=
  (parts false mediaType).findSome? fun part =>
    match cutAt '=' part with
    | (key, some value) =>
      if (trim key).map Char.toLower = "charset".toList then some (unquote (trim value)) else none
    | (_, none) => none

example : (ofName? "ISO-8859-1".toList).isSome = true := by decide +kernel
example : nameIn? "text/html; Charset=\"utf-8\"".toList = some "utf-8".toList := by decide +kernel

end Charset

end StreamResolver.Text
