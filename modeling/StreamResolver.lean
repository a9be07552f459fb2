import StreamResolver.Cipher.EventLoop
import StreamResolver.Cipher.Pages
import StreamResolver.Log.Journal
import StreamResolver.Resolver.Launch
import StreamResolver.Value.JsonPrinter
import StreamResolver.Proofs.Cipher.Bindings
import StreamResolver.Proofs.Cipher.Cache
import StreamResolver.Proofs.Cipher.Cancellation
import StreamResolver.Proofs.Cipher.KeptScript
import StreamResolver.Proofs.Cipher.LiteralValues
import StreamResolver.Proofs.Cipher.Located
import StreamResolver.Proofs.Cipher.MediaUrl
import StreamResolver.Proofs.Cipher.Operations
import StreamResolver.Proofs.Cipher.Positions
import StreamResolver.Proofs.Cipher.Renewal
import StreamResolver.Proofs.Cipher.Restart
import StreamResolver.Proofs.Cipher.Rounds
import StreamResolver.Proofs.Cipher.ScriptTransform
import StreamResolver.Proofs.Cipher.SingleFlight
import StreamResolver.Proofs.Stream.Tiers
import StreamResolver.Proofs.Cipher.Retry
import StreamResolver.Proofs.Media.Manifest
import StreamResolver.Proofs.Log.Contract
import StreamResolver.Proofs.Log.Masking
import StreamResolver.Proofs.Stream.Origin
import StreamResolver.Proofs.Stream.Manifests
import StreamResolver.Proofs.Pattern.AllWays
import StreamResolver.Proofs.Pattern.Capturing
import StreamResolver.Proofs.Cipher.Faults
import StreamResolver.Proofs.Stream.Degrading
import StreamResolver.Proofs.Stream.Recording
import StreamResolver.Proofs.Stream.Exhaustion
import StreamResolver.Proofs.Config.Precedence
import StreamResolver.Proofs.Config.RoundTrip
import StreamResolver.Proofs.Config.Usable
import StreamResolver.Proofs.Media.Parameters
import StreamResolver.Proofs.Media.Ranking
import StreamResolver.Proofs.Media.Rewriting
import StreamResolver.Proofs.Network.Failing
import StreamResolver.Proofs.Network.Searching
import StreamResolver.Proofs.Resolver.Resolving
import StreamResolver.Proofs.Media.Reading
import StreamResolver.Proofs.Media.Recognition
import StreamResolver.Proofs.Cipher.Slots
import StreamResolver.Proofs.Stream.OneBuild
import StreamResolver.Proofs.Media.Thumbnails
import StreamResolver.Proofs.Config.Canonical
import StreamResolver.Proofs.Network.Identifying
