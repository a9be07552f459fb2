/-
  Video links: which ones are recognised, what they name, and the matching page of an instance.

  A recognised link has one of ten forms.  Each form has a lead, which makes the link recognised, and
  a rest with the id in capture 1, which makes it rewritable; the target is where the id goes on an
  instance.  Forms that carry their id in the path are read from the link without its query; the ids
  of watch and playlist links live in the query and are read from the whole link.
-/
import StreamResolver.Pattern.Search
import StreamResolver.Text.Basic
import StreamResolver.Text.LetterCase

namespace StreamResolver.Link

open Text Pattern

/-! ## Parts of links -/

/-- `http://` or `https://` at the start. -/
def scheme : Pattern :=
  .sequence [.textStart, .word "http", .span false 0 (some 1) (.char 's'), .word "://"]

/-- The video site, perhaps under one of the given subdomains. -/
def site (subdomains : List String) : Pattern :=
  .seq (.opt (.anyOf (subdomains.map .word))) (.word "youtube.com/")

/-- An id in a path: up to the next slash, question mark or hash sign. -/
def pathId : Pattern := .capture 1 (.some1 (.noneOf ['/', '?', '#']))

/-- An id in a query: up to the next ampersand or hash sign. -/
def queryId : Pattern := .capture 1 (.some1 (.noneOf ['&', '#']))

/-- A parameter of a query that starts here, with whatever parameters before it on the same line;
    the longest way there is tried first. -/
def parameter (key : String) : Pattern :=
  .sequence [.opt (.seq (.many .notNewline) (.word "&")), .word key, .word "=", queryId]

/-! ## Forms -/

/-- A form of links. -/
structure Form where
  /-- What makes a link recognised. -/
  lead : Pattern
  /-- What follows in a link that has a page on an instance; the id is capture 1. -/
  rest : Pattern
  /-- What stands before the id on an instance. -/
  target : String

/-- A form with a scheme, a site and a path. -/
def Form.onSite (subdomains : List String) (path : String) (rest : Pattern) (target : String) :
    Form :=
  ⟨.sequence [scheme, site subdomains, .word path], rest, target⟩

/-- The recognised forms, in the order in which they are tried. -/
def forms : List Form :=
  [.onSite ["www.", "m.", "music."] "watch?" (parameter "v") "/watch?v=",
   ⟨.seq scheme (.word "youtu.be/"), pathId, "/watch?v="⟩,
   .onSite ["www."] "shorts/" pathId "/watch?v=",
   .onSite ["www."] "live/" pathId "/watch?v=",
   .onSite ["www."] "embed/" pathId "/watch?v=",
   .onSite ["www.", "music."] "playlist?" (parameter "list") "/playlist?list=",
   .onSite ["www."] "channel/" pathId "/channel/",
   .onSite ["www."] "c/" pathId "/channel/",
   .onSite ["www."] "user/" pathId "/user/",
   .onSite ["www."] "@" pathId "/@"]

/-! ## What a link names -/

/-- Everything before the first question mark. -/
def withoutQuery (url : List Char) : List Char := (cutAt '?' url).1

/-- Capture 1 of the leftmost match. -/
def capture? (p : Pattern) (url : List Char) : Option (List Char) :=
  (p.search? url).bind (·.group? 1)

/-- A non-empty value of a parameter, wherever a query mark or an ampersand precedes its key. -/
def valueOf (key : String) : Pattern :=
  .sequence [.one (.ofChars ['?', '&']), .word key, .word "=", queryId]

/-- The first id found in the path behind one of the given texts. -/
def behindFirst (leads : List String) (url : List Char) : Option (List Char) :=
  leads.findSome? fun lead => capture? (.seq (.word lead) pathId) url

/-- Whether a link has a recognised form. -/
def isRecognised (url : List Char) : Bool := forms.any fun f => f.lead.occursIn url

/-- The video that a link names. -/
def videoId? (url : List Char) : Option (List Char) :=
  match capture? (valueOf "v") url with
  | some id => some id
  | none =>
    behindFirst ["youtu.be/", "youtube.com/shorts/", "youtube.com/live/", "youtube.com/embed/"]
      (withoutQuery url)

/-- The playlist that a link names. -/
def playlistId? (url : List Char) : Option (List Char) := capture? (valueOf "list") url

/-- Whether a link names a playlist and no video in its query. -/
def isPlaylist (url : List Char) : Bool :=
  (playlistId? url).isSome && !(valueOf "v").occursIn url

/-- The channel, user or handle that a link names. -/
def channel? (url : List Char) : Option (List Char) :=
  behindFirst ["/channel/", "/c/", "/user/", "/@"] (withoutQuery url)

/-- The matching page of an instance; a link without one is returned as it is. -/
def onInstance (url instanceUrl : List Char) : List Char :=
  let page := forms.findSome? fun f =>
    (capture? (.seq f.lead f.rest) url).map fun id => instanceUrl ++ f.target.toList ++ id
  page.getD url

/-! ## Manifests -/

/-- The endings of manifest files. -/
def manifestEndings : List String := [".mpd", ".m3u8"]

/-- Parts of URLs that lead to manifests. -/
def manifestMarkers : List String := ["/dash/", "/api/manifest/", "/hls_playlist/"]

/-- Whether a URL leads to a streaming manifest instead of a media file. -/
def isManifest (url : List Char) : Bool :=
  let lowered := lower url
  let ends (s : List Char) : Bool := manifestEndings.any fun e => e.toList.isSuffixOf s
  ends (withoutQuery lowered) || ends lowered ||
    manifestMarkers.any fun m => occurs m.toList lowered

end StreamResolver.Link
