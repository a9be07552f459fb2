/-
  A shelf of pages: a small world in which sessions can be tried.

  Each URL has a text or none, and may be told to fail or to break down so many times before its text
  is served.  Which URLs were asked for is noted, in order.
-/
import StreamResolver.Cipher.Session

namespace StreamResolver.Cipher

/-- Pages, the disturbances that are still to come, and what was asked for. -/
structure Pages where
  texts : Keyed String := []
  /-- How often reading a URL is still refused. -/
  failures : Keyed Nat := []
  /-- How often reading a URL still breaks down. -/
  crashes : Keyed Nat := []
  asked : List String := []
  deriving DecidableEq, Repr

namespace Pages

/-- Count down under a key; `none` when nothing is left there. -/
def countDown? (t : Keyed Nat) (url : String) : Option (Keyed Nat) :=
  match t.get? url with
  | some (n + 1) => some (t.put url n)
  | _ => none

/-- The text of a page, after its disturbances. -/
def read (url : String) : Action Pages String := fun pages =>
  match countDown? pages.crashes url with
  | some crashes => ⟨.error (.fault .crashed), { pages with crashes }, []⟩
  | none =>
    match countDown? pages.failures url with
    | some failures =>
      ⟨.error (.extractor (.unavailable url (some 503) "")), { pages with failures }, []⟩
    | none =>
      match pages.texts.get? url with
      | some text => ⟨.ok text, pages, []⟩
      | none => ⟨.error (.extractor (.unavailable url (some 404) "")), pages, []⟩

/-- Reading pages; asking for one is noted. -/
def fetcher : Fetcher Pages where
  request url pages := { pages with asked := pages.asked ++ [url] }
  deliver := read

end Pages

end StreamResolver.Cipher
