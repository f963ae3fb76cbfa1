import LightBridge.Config.Storage
import LightBridge.Logging
import LightBridge.Proofs.Cache.Play
import LightBridge.Proofs.Cache.View
import LightBridge.Proofs.Channel.Spacing
import LightBridge.Proofs.Handle.Play
import LightBridge.Session.BridgeSession
import LightBridge.Session.Workspace
import LightBridge.Proofs.Channel.Connections
import LightBridge.Proofs.Bridge.Play
import LightBridge.Proofs.Bridge.Pairing
import LightBridge.Proofs.Bridge.Reconnect
import LightBridge.Proofs.Session.Play
import LightBridge.Proofs.Session.Spacing
import LightBridge.Proofs.Change.Request
import LightBridge.Proofs.Change.Power
import LightBridge.Proofs.Change.ColorMode
import LightBridge.Proofs.Change.Commit
import LightBridge.Proofs.Change.Difference
import LightBridge.Proofs.Change.WriteBack
import LightBridge.Proofs.Change.Body
import LightBridge.Proofs.Change.Overlap
import LightBridge.Proofs.Change.Implied
import LightBridge.Proofs.Change.Acknowledged
import LightBridge.Proofs.Change.Increment
import LightBridge.Proofs.Change.Order
import LightBridge.Proofs.Session.Turns
import LightBridge.Proofs.Session.Run
import LightBridge.Proofs.Session.Fetches
import LightBridge.Proofs.Change.Recommit
import LightBridge.Proofs.Session.Listing
import LightBridge.Proofs.Resource.AllLights
import LightBridge.Proofs.Resource.CachedExistence
import LightBridge.Proofs.Session.Overflow
import LightBridge.Proofs.Session.Pairing
import LightBridge.Proofs.Session.Switch
import LightBridge.Proofs.Change.FieldOrder
import LightBridge.Proofs.Change.Ranges
import LightBridge.Proofs.Reply
import LightBridge.Proofs.Resource.Removal
import LightBridge.Proofs.Resource.Creation
import LightBridge.Proofs.Session.Reading
import LightBridge.Proofs.Channel.Retry
import LightBridge.Proofs.Session.Sensors
import LightBridge.Proofs.Config.Override
import LightBridge.Proofs.Config.RoundTrip
import LightBridge.Proofs.Handle.Write
import LightBridge.Proofs.Session.Detachment
import LightBridge.Proofs.Resource.LightIds
