import Jukebox.Main
import Jukebox.Proofs.Playback.Edits
import Jukebox.Proofs.Playback.Effects
import Jukebox.Proofs.Playback.Run
import Jukebox.Proofs.Playback.Streams
import Jukebox.Proofs.Playback.Rehearsal
import Jukebox.Proofs.Playback.Coherence
import Jukebox.Proofs.Playback.Parking
import Jukebox.Proofs.Playback.PlayByPath
import Jukebox.Proofs.Playback.Requests
import Jukebox.Proofs.Playback.Orders
import Jukebox.Proofs.Playback.Supervision
import Jukebox.Proofs.Audio.Drawing
import Jukebox.Proofs.Audio.Mixing
import Jukebox.Proofs.Audio.Tally
import Jukebox.Proofs.Audio.Decoding
import Jukebox.Proofs.Audio.Filling
import Jukebox.Proofs.Audio.Restarting
import Jukebox.Proofs.Playback.Draining
import Jukebox.Proofs.Playback.Unattended
import Jukebox.Proofs.Playback.Neighbours
import Jukebox.Proofs.Http.Dispatching
import Jukebox.Proofs.Http.Routing
import Jukebox.Proofs.Playback.Handling
import Jukebox.Proofs.Playback.Refusals
import Jukebox.Proofs.Playback.Paths
import Jukebox.Proofs.Storage.Components
import Jukebox.Proofs.Text.Utf8
import Jukebox.Proofs.Module.Calls
import Jukebox.Proofs.Module.Watching
import Jukebox.Proofs.Module.Lifecycle
import Jukebox.Proofs.Daemon.History
import Jukebox.Proofs.Daemon.Player
import Jukebox.Proofs.Daemon.Restart
import Jukebox.Proofs.Daemon.Confinement
import Jukebox.Proofs.Json.Members
import Jukebox.Proofs.Json.Numerals
import Jukebox.Proofs.Json.Rereading
import Jukebox.Proofs.Json.Survival
import Jukebox.Proofs.Storage.Walking
import Jukebox.Proofs.Storage.Calls
import Jukebox.Proofs.Storage.Siblings
import Jukebox.Proofs.Storage.Landing
import Jukebox.Proofs.Storage.Settling
import Jukebox.Proofs.Storage.Places
import Jukebox.Proofs.Config.Sections
import Jukebox.Proofs.Config.Saving
import Jukebox.Proofs.Config.Outcomes
import Jukebox.Proofs.Config.RoundTrip
import Jukebox.Proofs.Config.Interruption
import Jukebox.Proofs.Daemon.Recovery
import Jukebox.Proofs.Daemon.ForeignSections
import Jukebox.Proofs.Daemon.Parting
import Jukebox.Proofs.Daemon.Applying
import Jukebox.Proofs.Daemon.Reading
import Jukebox.Proofs.Http.Matching
import Jukebox.Proofs.Playback.Removals
import Jukebox.Proofs.Playback.Playing
import Jukebox.Proofs.Playback.Retracing
import Jukebox.Proofs.Http.Registering
import Jukebox.Proofs.Http.Exclusion
import Jukebox.Proofs.Playback.Table
import Jukebox.Proofs.Audio.Cutting
import Jukebox.Proofs.Audio.Rounding
import Jukebox.Proofs.Audio.Length
import Jukebox.Proofs.Playback.Addressing
import Jukebox.Proofs.Audio.Position
import Jukebox.Proofs.Playback.Listings
import Jukebox.Proofs.Json.Compact
import Jukebox.Proofs.Library.Views
import Jukebox.Proofs.Library.Resolving
import Jukebox.Proofs.Audio.Ledger
import Jukebox.Proofs.Audio.Contract
import Jukebox.Proofs.Audio.Rows
import Jukebox.Proofs.Audio.Bounds
