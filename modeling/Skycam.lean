import Skycam.Camera.Json
import Skycam.Preset.Json
import Skycam.Rig.Json
import Skycam.Samples
import Skycam.Stage
import Skycam.Proofs.Fleet.Live
import Skycam.Proofs.Fleet.Replay
import Skycam.Proofs.Fleet.Recovery
import Skycam.Proofs.Fleet.Refusal
import Skycam.Proofs.Fleet.InPlace
import Skycam.Proofs.Fleet.Alone
import Skycam.Proofs.Playback.Order
import Skycam.Proofs.Playback.Timeline
import Skycam.Proofs.Script.Blocks
import Skycam.Proofs.Fleet.Still
import Skycam.Proofs.Playback.Landing
import Skycam.Proofs.Stage.Turn
import Skycam.Proofs.Fleet.Saved
import Skycam.Proofs.Fleet.Hidden
import Skycam.Proofs.Fleet.Poses
import Skycam.Proofs.Fleet.Returns
import Skycam.Proofs.Config.Text
import Skycam.Proofs.Playback.Chain
import Skycam.Proofs.Stage.Turnover
import Skycam.Proofs.Fleet.Waiting
import Skycam.Proofs.Fleet.BadStep
import Skycam.Proofs.Script.Superseded
import Skycam.Proofs.Recovery.Brink
import Skycam.Proofs.Placement.Pixels
import Skycam.Proofs.Fleet.Placement
import Skycam.Proofs.Fleet.Binding
import Skycam.Proofs.Preset.Stable
import Skycam.Proofs.Playback.Guarded
import Skycam.Proofs.Script.Diagnostics
import Skycam.Proofs.Fleet.Group
import Skycam.Proofs.Roster.Records
import Skycam.Proofs.Playback.Coherent
import Skycam.Proofs.Script.PlayerName
