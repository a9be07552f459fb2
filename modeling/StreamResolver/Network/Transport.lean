/-
  The network, as far as it is used: requests and what comes of them.

  A transport turns a request into an answer or a refusal and may change its own state on the way.
  There are two kinds of request: a text is read in full, or a media URL is probed by its first octet.

  `Routes` is a transport that follows a plan: each URL has a list of exchanges that are used up one
  by one, the last one again and again, and the URL `*` stands for all others.
-/
import StreamResolver.Failure

namespace StreamResolver.Network

/-- A request. -/
inductive Request where
  /-- Read a text; the timeout is in seconds. -/
  | read (url : String) (timeout : Number)
  /-- Ask for the start of a media file with the given headers. -/
  | probe (url : String) (timeout : Number) (headers : Keyed String)
  deriving DecidableEq, Repr

/-- The URL of a request. -/
def Request.url : Request → String
  | .read url _ => url
  | .probe url _ _ => url

/-- What a server answers. -/
structure Answer where
  status : Int
  /-- The media type of the body, if it is given. -/
  mediaType : Option String := none
  /-- The octets of the body. -/
  body : List Nat := []
  deriving DecidableEq, Repr

/-- Why there is no answer. -/
inductive Refusal where
  | timedOut
  /-- The connection failed in another way. -/
  | failed (detail : String)
  /-- Something that is no failure of the connection. -/
  | fault (f : Fault)
  deriving DecidableEq, Repr

/-- What comes of a request. -/
abbrev Exchange := Except Refusal Answer

/-- A network with state `σ`. -/
structure Transport (σ : Type) where
  send : Request → σ → Exchange × σ

/-- Whether a status means success. -/
def Answer.isSuccess (a : Answer) : Bool := 200 ≤ a.status && a.status < 300

/-- Whether a status means success or a redirection. -/
def Answer.isReachable (a : Answer) : Bool := 200 ≤ a.status && a.status < 400

/-! ## A planned network -/

/-- The exchanges that are still to come for each URL, and the requests so far. -/
structure Routes where
  plans : Keyed (List Exchange) := []
  sent : List Request := []

namespace Routes

/-- The answer for a URL that no plan knows. -/
def unknown : Exchange := .ok { status := 404 }

/-- The next exchange under a key, and the plans after it. -/
def next (plans : Keyed (List Exchange)) (key : String) : Exchange × Keyed (List Exchange) :=
  match plans.get? key with
  | none | some [] => (unknown, plans)
  | some [last] => (last, plans)
  | some (first :: rest) => (first, plans.put key rest)

/-- The network that follows the plans. -/
def transport : Transport Routes where
  send request routes :=
    let key := if routes.plans.has request.url then request.url else "*"
    let (exchange, plans) := next routes.plans key
    (exchange, { plans, sent := routes.sent ++ [request] })

end Routes

end StreamResolver.Network
