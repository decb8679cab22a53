import RustLibp2p.AnnexB
import RustLibp2p.ControlPairing
import RustLibp2p.DcutrCandidates
import RustLibp2p.DeviceReservation
import RustLibp2p.EncoderConfig
import RustLibp2p.GossipsubConfig
import RustLibp2p.GossipsubPublish
import RustLibp2p.GossipsubScore
import RustLibp2p.GossipsubSubscriptions
import RustLibp2p.JitterBuffer
import RustLibp2p.KadAddresses
import RustLibp2p.KadJobs
import RustLibp2p.KadReceived
import RustLibp2p.MediaDrain
import RustLibp2p.MediaSender
import RustLibp2p.MplexDelivery
import RustLibp2p.MplexLimits
import RustLibp2p.MultistreamLazy
import RustLibp2p.NatDiagnostic
import RustLibp2p.QueryDisjointPaths
import RustLibp2p.QueryFixed
import RustLibp2p.RegistryRelay
import RustLibp2p.RelayAccounting
import RustLibp2p.RelayClientBook
import RustLibp2p.RelayLimits
import RustLibp2p.RelayRateLimiter
import RustLibp2p.RendezvousServer
import RustLibp2p.ViewerUpgrade
import RustLibp2p.WebRtcHalfClose
