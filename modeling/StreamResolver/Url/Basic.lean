/-
  URLs: cutting into parts, putting together, resolving references.

  A URL has a scheme, an authority, a path, a query and a fragment.  Cutting is lenient: leading
  control characters and blanks and all tabs and line breaks are dropped, anything that is no scheme
  is path, and only an authority with malformed brackets or with characters that hide a delimiter is
  refused.  Putting together keeps the parts, but not an empty query or fragment.
-/
import StreamResolver.Text.LetterCase
import StreamResolver.Url.Address
import StreamResolver.Failure

namespace StreamResolver

/-- The parts of a URL. -/
structure Url where
  scheme : List Char
  authority : List Char
  path : List Char
  query : List Char
  fragment : List Char
  deriving DecidableEq, Repr

namespace Url

open Text

/-! ## Cutting -/

/-- Drop the first characters up to a space or below, and every tab and line break. -/
def clean (s : List Char) : List Char :=
  (s.dropWhile fun c => c.toNat ≤ 0x20).filter fun c => c ≠ '\t' && c ≠ '\n' && c ≠ '\r'

/-- Whether a character may stand in a scheme. -/
def isSchemeChar (c : Char) : Bool := c.isAlphanum || c == '+' || c == '-' || c == '.'

/-- Whether a text is a scheme. -/
def isScheme (s : List Char) : Bool := s.head?.any Char.isAlpha && s.all isSchemeChar

/-- The scheme of a URL in lower case, the given one if it has none, and the rest. -/
def cutScheme (given s : List Char) : List Char × List Char :=
  match cutAt ':' s with
  | (front, some rest) => if isScheme front then (lower front, rest) else (given, s)
  | (_, none) => (given, s)

/-- Whether a character ends an authority. -/
def endsAuthority (c : Char) : Bool := c == '/' || c == '?' || c == '#'

/-- The authority behind two slashes, and the rest. -/
def cutAuthority (s : List Char) : List Char × List Char :=
  match s with
  | '/' :: '/' :: rest =>
    (rest.takeWhile fun c => !endsAuthority c, rest.dropWhile fun c => !endsAuthority c)
  | _ => ([], s)

/-- Characters that turn into a delimiter under compatibility normalisation. -/
def disguised : List Nat :=
  [0x2047, 0x2048, 0x2049, 0x2100, 0x2101, 0x2105, 0x2106, 0x2a74, 0xfe13, 0xfe16, 0xfe55, 0xfe56,
   0xfe5f, 0xfe6b, 0xff03, 0xff0f, 0xff1a, 0xff1f, 0xff20]

/-- The host of an authority with the number behind its colon: all behind the last `@`. -/
def hostPart (authority : List Char) : List Char :=
  match cutAtLast '@' authority with
  | some (_, host) => host
  | none => authority

/-- Whether a host is an address: in brackets at its start, with nothing or a colon right behind them,
    or else up to the first colon. -/
def hasAddress (host : List Char) : Bool :=
  match cutAt '[' host with
  | (front, some rest) =>
    let (address, behind) := cutAt ']' rest
    front.isEmpty && (behind.getD []).head?.all (· == ':') && Address.isBracketed address
  | (_, none) => Address.isBracketed (cutAt ':' host).1

/-- Whether the brackets of an authority are in order: none, or both kinds and an address as host. -/
def bracketsInOrder (authority : List Char) : Bool :=
  match authority.contains '[', authority.contains ']' with
  | false, false => true
  | true, true => hasAddress (hostPart authority)
  | _, _ => false

/-- Whether an authority is accepted. -/
def isAuthority (authority : List Char) : Bool :=
  bracketsInOrder authority && !authority.any fun c => disguised.contains c.toNat

/-- The parts of a URL; `given` is the scheme of a URL that has none. -/
def splitWith (given s : List Char) : Except Fault Url :=
  let (scheme, rest) := cutScheme given (clean s)
  let (authority, rest) := cutAuthority rest
  if !isAuthority authority then .error .malformedUrl
  else
    let (rest, fragment) := cutAt '#' rest
    let (path, query) := cutAt '?' rest
    .ok ⟨scheme, authority, path, query.getD [], fragment.getD []⟩

/-- The parts of a URL. -/
def split (s : List Char) : Except Fault Url := splitWith [] s

/-! ## Putting together -/

/-- Schemes whose URLs have an authority. -/
def withAuthority : List String :=
  ["", "ftp", "http", "gopher", "nntp", "telnet", "imap", "wais", "file", "mms", "https", "shttp",
   "snews", "prospero", "rtsp", "rtspu", "rsync", "svn", "svn+ssh", "sftp", "nfs", "git", "git+ssh",
   "ws", "wss"]

/-- Schemes whose URLs may be relative. -/
def withRelative : List String :=
  ["", "ftp", "http", "gopher", "nntp", "imap", "wais", "file", "https", "shttp", "mms", "prospero",
   "rtsp", "rtspu", "sftp", "svn", "svn+ssh", "ws", "wss"]

/-- Schemes whose last path segment may carry parameters behind a semicolon. -/
def withParameters : List String :=
  ["", "ftp", "hdl", "prospero", "http", "imap", "https", "shttp", "rtsp", "rtspu", "sip", "sips",
   "mms", "sftp", "tel"]

/-- Whether a scheme is in a list. -/
def among (schemes : List String) (scheme : List Char) : Bool :=
  schemes.any fun s => s.toList == scheme

/-- Whether a URL is written with two slashes before its path. -/
def hasSlashes (u : Url) : Bool :=
  !u.authority.isEmpty ||
    (!u.scheme.isEmpty && among withAuthority u.scheme && !(['/', '/'] : List Char).isPrefixOf u.path)

/-- The authority and the path. -/
def hierarchy (u : Url) : List Char :=
  if u.hasSlashes then
    let path := match u.path with
      | [] => []
      | '/' :: rest => '/' :: rest
      | path => '/' :: path
    '/' :: '/' :: u.authority ++ path
  else u.path

/-- The text of a URL. -/
def text (u : Url) : List Char :=
  (if u.scheme.isEmpty then [] else u.scheme ++ [':']) ++ u.hierarchy ++
    (if u.query.isEmpty then [] else '?' :: u.query) ++
    (if u.fragment.isEmpty then [] else '#' :: u.fragment)

/-! ## References -/

/-- The path of a URL without the parameters of its last segment, and these. -/
def cutParameters (u : Url) : List Char × List Char :=
  if !among withParameters u.scheme then (u.path, [])
  else match cutAtLast '/' u.path with
    | none => let (p, q) := cutAt ';' u.path; (p, q.getD [])
    | some (front, last) =>
      let (p, q) := cutAt ';' last
      (front ++ '/' :: p, q.getD [])

/-- A URL with the given path and parameters. -/
def withPath (u : Url) (path parameters : List Char) : Url :=
  { u with path := if parameters.isEmpty then path else path ++ ';' :: parameters }

/-- The path segments with `.` dropped and `..` undoing the segment before it. -/
def resolveDots (segments : List (List Char)) : List (List Char) :=
  segments.foldl (fun done s =>
    if s = ['.', '.'] then done.dropLast else if s = ['.'] then done else done ++ [s]) []

/-- The segments of a path relative to those of a base path; empty ones between are dropped. -/
def relativeSegments (base path : List Char) : List (List Char) :=
  let parts := splitOn '/' base
  let parts := if parts.getLast? == some [] then parts else parts.dropLast
  match parts ++ splitOn '/' path with
  | first :: rest =>
    first :: (rest.dropLast.filter fun s => !s.isEmpty) ++ rest.getLast?.toList
  | [] => []

/-- A path resolved against a base path. -/
def resolvePath (base path : List Char) : List Char :=
  let segments := if path.head? == some '/' then splitOn '/' path else relativeSegments base path
  let resolved := resolveDots segments
  let isDots := segments.getLast?.any fun s => s == ['.'] || s == ['.', '.']
  let joined := joinWith ['/'] (if isDots then resolved ++ [[]] else resolved)
  if joined.isEmpty then ['/'] else joined

/-- The URL that a reference stands for at a base. -/
def join (base reference : List Char) : Except Fault (List Char) := do
  if base.isEmpty then return reference
  if reference.isEmpty then return base
  let b ← split base
  let r ← splitWith b.scheme reference
  if r.scheme ≠ b.scheme || !among withRelative r.scheme then return reference
  if among withAuthority r.scheme && !r.authority.isEmpty then
    let (path, parameters) := r.cutParameters
    return (r.withPath path parameters).text
  let r := if among withAuthority r.scheme then { r with authority := b.authority } else r
  let (path, parameters) := r.cutParameters
  let (basePath, baseParameters) := b.cutParameters
  if path.isEmpty && parameters.isEmpty then
    let query := if r.query.isEmpty then b.query else r.query
    return ({ r with query }.withPath basePath baseParameters).text
  else return (r.withPath (resolvePath basePath path) parameters).text

end Url

end StreamResolver
