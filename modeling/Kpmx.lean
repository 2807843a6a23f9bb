import Kpmx.App.Application
import Kpmx.App.Handlers
import Kpmx.App.Messages
import Kpmx.App.Routing
import Kpmx.App.Rows
import Kpmx.App.Settling
import Kpmx.App.Strips
import Kpmx.Control.Calls
import Kpmx.Control.Drift
import Kpmx.Control.Echo
import Kpmx.Control.Engine
import Kpmx.Control.OwnEcho
import Kpmx.Control.Process
import Kpmx.Control.RoundTrip
import Kpmx.Feedback.Buffer
import Kpmx.Feedback.Forwarder
import Kpmx.Feedback.Transport
import Kpmx.Feedback.Wakeup
import Kpmx.Lib.LastWrite
import Kpmx.Lib.Loops
import Kpmx.Lib.Progress
import Kpmx.Lib.Runs
import Kpmx.Lib.SearchTree
import Kpmx.Lib.Spsc
import Kpmx.Lib.WakeFlag
import Kpmx.Main.Construction
import Kpmx.Main.FeedbackStreams
import Kpmx.Main.LayerTree
import Kpmx.Main.Shutdown
import Kpmx.Main.Streams
import Kpmx.Main.Wiring
import Kpmx.Mixer.Halves
import Kpmx.Mixer.InitialUpdate
import Kpmx.Mixer.Layers
import Kpmx.Mixer.NameGrammar
import Kpmx.Mixer.PortNames
import Kpmx.Mixer.Routes
import Kpmx.Mixer.StripList
import Kpmx.Model.Branches
import Kpmx.Model.ChannelStrip
import Kpmx.Model.Conversions
import Kpmx.Model.Decode
import Kpmx.Model.Double
import Kpmx.Model.Emission
import Kpmx.Model.Integers
import Kpmx.Model.Messages
import Kpmx.Model.SelectedLoop
import Kpmx.Model.Setters
import Kpmx.Model.Steady
import Kpmx.Nodes.NodesList
import Kpmx.Nodes.View
import Kpmx.Setup.MixerSetup
import Kpmx.Setup.WellFormed
import Kpmx.Spa.Builder
import Kpmx.Spa.Bytes
import Kpmx.Spa.Extraction
import Kpmx.Spa.Params
import Kpmx.Spa.Pod
import Kpmx.Streams.Buffers
import Kpmx.Ui.Bindings
import Kpmx.Ui.ChannelStrip
import Kpmx.Ui.Window
import Kpmx.Wireplumber.Acceptance
import Kpmx.Wireplumber.Conservation
import Kpmx.Wireplumber.Handling
import Kpmx.Wireplumber.LiveNodes
import Kpmx.Wireplumber.LiveRows
import Kpmx.Wireplumber.MetadataLifetime
import Kpmx.Wireplumber.Objects
import Kpmx.Wireplumber.Properties
import Kpmx.Wireplumber.Routing
import Kpmx.Wireplumber.Session
import Kpmx.Wireplumber.Targets
import Kpmx.Wireplumber.Wakeup
