/-
  Reading from an instance is one exchange.

  Each way of reading sends one request and makes its outcome from what comes of it: the same exchange
  gives the same result and the same events, whatever the network (`Exchanges`).  So a reading is
  judged on the smallest network there is, the one that has one exchange to give
  (`Transport.always`), and what is shown there holds everywhere.
-/
import StreamResolver.Network.Instance

namespace StreamResolver.Network

/-! ## One exchange -/

/-- The network on which every request ends in the same exchange. -/
def Transport.always (x : Exchange) : Transport Unit := ⟨fun _ s => (x, s)⟩

/-- An action on any network. -/
abbrev Reader (α : Type) := ∀ σ : Type, Transport σ → Action σ α

/-- The action sends this request and nothing else, and the exchange makes its outcome. -/
def Exchanges {α : Type} (request : Request) (read : Reader α) : Prop :=
  ∀ (σ : Type) (t : Transport σ) (s : σ),
    read σ t s =
      ⟨(read Unit (.always (t.send request s).1) ()).result, (t.send request s).2,
        (read Unit (.always (t.send request s).1) ()).events⟩

/-- The action sends nothing and has one outcome. -/
def Still {α : Type} (p : ∀ σ : Type, Action σ α) : Prop :=
  ∀ (σ : Type) (s : σ), p σ s = ⟨(p Unit ()).result, s, (p Unit ()).events⟩

variable {α β : Type} {request : Request}

theorem still_pure (a : α) : Still fun _ => pure a := fun _ _ => rfl

theorem still_fail (e : Failure) : Still (α := α) fun _ => .fail e := fun _ _ => rfl

theorem still_emit_then (level : Level) (name : String) (fields : Keyed Value)
    {p : ∀ σ : Type, Action σ α} (hp : Still p) :
    Still fun σ => Action.emit level name fields >>= fun _ => p σ := by
  intro σ s
  have hemit : ∀ (σ : Type) (s : σ),
      Action.emit level name fields s = ⟨.ok (), s, [⟨level, name, fields⟩]⟩ := fun _ _ => rfl
  show (Action.emit level name fields >>= fun _ => p σ) s =
    ⟨((Action.emit level name fields >>= fun _ => p Unit) ()).result, s,
      ((Action.emit level name fields >>= fun _ => p Unit) ()).events⟩
  rw [Action.bind_ok (hemit σ s), Action.bind_ok (hemit Unit ()), hp σ s]

/-- What follows an exchange without another one leaves it the only one. -/
theorem Exchanges.bind {read : Reader α} {f : ∀ σ : Type, α → Action σ β}
    (h : Exchanges request read) (hf : ∀ a, Still fun σ => f σ a) :
    Exchanges request fun σ t => read σ t >>= f σ := by
  intro σ t s
  have hread := h σ t s
  generalize hone : read Unit (.always (t.send request s).1) () = o at hread
  show (read σ t >>= f σ) s = ⟨((read Unit (.always (t.send request s).1) >>= f Unit) ()).result,
    (t.send request s).2, ((read Unit (.always (t.send request s).1) >>= f Unit) ()).events⟩
  rcases o with ⟨e | a, u, events⟩
  · rw [Action.bind_error hread, Action.bind_error hone]
  · have hstill : f σ a (t.send request s).2 =
        ⟨(f Unit a ()).result, (t.send request s).2, (f Unit a ()).events⟩ := hf a σ _
    rw [Action.bind_ok hread, Action.bind_ok hone, hstill]

end StreamResolver.Network

/-! ## Instances -/

namespace StreamResolver.Instance

open Network

variable (i : Instance)

theorem get_exchanges (url : String) (purpose : Purpose) :
    Exchanges (.read url i.timeout) fun _ t => i.get t url purpose := by
  intro σ t s
  rcases hsend : t.send (.read url i.timeout) s with ⟨(_ | detail | f) | answer, s'⟩ <;>
    simp only [get, Transport.always, hsend]
  split <;> rfl

theorem fetchJson_exchanges (url : String) :
    Exchanges (.read url i.timeout) fun _ t => i.fetchJson t url := by
  refine (i.get_exchanges url .json).bind fun answer => ?_
  rcases answer.json? with _ | v
  · exact still_emit_then _ _ _ (still_fail _)
  · exact still_pure v

theorem fetchObject_exchanges (path : String) :
    Exchanges (.read (i.apiUrl path) i.timeout) fun _ t => i.fetchObject t path := by
  refine (i.fetchJson_exchanges (i.apiUrl path)).bind fun v => ?_
  rcases v.isObject with _ | _
  · exact still_fail _
  · exact still_pure v

/-- The URL of the response about a video. -/
def videoUrl (id : String) : String := i.apiUrl ("videos/" ++ inUrl id)

/-- The URL of the response about a playlist. -/
def playlistUrl (id : String) : String := i.apiUrl ("playlists/" ++ inUrl id)

/-- The URL of a search. -/
def searchUrl (query : String) : String := i.apiUrl ("search?q=" ++ inUrl query ++ "&type=video")

theorem video_exchanges (id : String) :
    Exchanges (.read (i.videoUrl id) i.timeout) fun _ t => i.video t id :=
  i.fetchObject_exchanges ("videos/" ++ inUrl id)

theorem playlist_exchanges (id : String) :
    Exchanges (.read (i.playlistUrl id) i.timeout) fun _ t => i.playlist t id :=
  i.fetchObject_exchanges ("playlists/" ++ inUrl id)

theorem search_exchanges (query : String) :
    Exchanges (.read (i.searchUrl query) i.timeout) fun _ t => i.search t query := by
  refine (i.fetchJson_exchanges (i.searchUrl query)).bind fun v => ?_
  rcases v with _ | _ | _ | _ | _ | _ | _ <;> exact still_pure _

end StreamResolver.Instance
