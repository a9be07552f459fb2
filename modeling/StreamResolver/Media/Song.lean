/-
  Songs and playlists: what a resolved link gives.
-/
import StreamResolver.Value.Basic

namespace StreamResolver

/-- Who published a video. -/
structure Uploader where
  name : String := ""
  url : String := ""
  deriving DecidableEq, Repr

/-- A video that can be played. -/
structure Song where
  id : String
  name : String
  url : String
  source : String := "youtube"
  playFromSource : Bool := true
  thumbnail : String := ""
  /-- Seconds. -/
  duration : Int := 0
  isLive : Bool := false
  views : Int := 0
  likes : Int := 0
  uploader : Uploader := {}
  /-- Whether the song is bound to the resolver that found it. -/
  bound : Bool := false
  /-- Whatever the one who asked for the song attached to it. -/
  metadata : Value := .null
  /-- The media URL, once one was selected. -/
  streamUrl : Option String := none
  deriving BEq, Repr

/-- A named list of songs. -/
structure Playlist where
  id : String
  name : String
  url : String
  songs : List Song := []
  source : String := "youtube"
  thumbnail : String := ""
  metadata : Value := .null
  deriving BEq, Repr

/-- The song with what the one who asked for it attached to it. -/
def Song.attach (bound : Bool) (metadata : Value) (s : Song) : Song := { s with bound, metadata }

/-- The playlist with what the one who asked for it attached to it and to each of its songs. -/
def Playlist.attach (bound : Bool) (metadata : Value) (p : Playlist) : Playlist :=
  { p with songs := p.songs.map (Song.attach bound metadata), metadata }

end StreamResolver
