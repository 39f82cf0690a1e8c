import Ohmcp.FrameCodec
import Ohmcp.ResultDelivery
import Ohmcp.Responses
import Ohmcp.Authenticity
import Ohmcp.AuthAgreement
import Ohmcp.UplinkOrder
import Ohmcp.InFlight
import Ohmcp.Answering
import Ohmcp.ExactCodec
import Ohmcp.FrameStream
import Ohmcp.Effects
import Ohmcp.Unsent
import Ohmcp.Notifications
import Ohmcp.AccessGate
import Ohmcp.ServerCache
import Ohmcp.KeyAgreement
import Ohmcp.JsonRpc
import Ohmcp.RingAgreement
import Ohmcp.SequentialCalls
import Ohmcp.RingBounds
import Ohmcp.FrameLimit
import Ohmcp.FlushRuns
import Ohmcp.CacheHistory
import Ohmcp.RegistryRuns
import Ohmcp.SessionStream
import Ohmcp.LateCancel
import Ohmcp.Residue
import Ohmcp.Dispatching
import Ohmcp.CacheCoherence
import Ohmcp.ConcurrentCalls
import Ohmcp.HexDigits
import Ohmcp.NonceReuse
import Ohmcp.BufferedCancel
import Ohmcp.Shutdown
import Ohmcp.RemoteAgreement
import Ohmcp.SoftBus
