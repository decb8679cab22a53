import Mathlib.Logic.Basic

/-! The viewer's session as driven by the bridge to the app. While a connection is being made,
`connect_with_options` takes the swarm's events itself. The tasks that read frames, NAT diagnosis and
discovery are left out. -/

namespace RustLibp2p.Camera.ViewerLoop

/-- The components of an address that the viewer looks at. -/
inductive Protocol where
  | ip4 (a b c d : UInt8)
  | quicV1
  | p2pCircuit
  | other (name : String)
  deriving DecidableEq

abbrev Multiaddr := List Protocol

namespace Multiaddr

def isCircuit (addr : Multiaddr) : Bool := addr.any fun protocol => protocol == .p2pCircuit

def isQuic (addr : Multiaddr) : Bool := addr.any fun protocol => protocol == .quicV1

/-- `Ipv4Addr::is_private` of some component. -/
def isLan (addr : Multiaddr) : Bool :=
  addr.any fun protocol =>
    match protocol with
    | .ip4 a b _ _ => a == 10 || (a == 172 && 16 ≤ b && b ≤ 31) || (a == 192 && b == 168)
    | _ => false

end Multiaddr

inductive ConnectionType where
  | relayCircuit | quicDirect | lanDirect | tcpDirect | disconnected
  deriving DecidableEq

namespace ConnectionType

def isRelay (connectionType : ConnectionType) : Bool := connectionType == .relayCircuit

def isDirect : ConnectionType → Bool
  | .quicDirect | .lanDirect | .tcpDirect => true
  | .relayCircuit | .disconnected => false

end ConnectionType

/-- The configured choice of a stream; a name that is none of these counts as `main`. -/
inductive StreamType where
  | auto | main | sub | third
  deriving DecidableEq

inductive StreamProtocol where
  | videoMain | videoSub | videoThird | audio | control
  deriving DecidableEq

structure StreamTypeResolver where
  streamType : StreamType
  connectionType : ConnectionType

namespace StreamTypeResolver

def new (streamType : StreamType) : StreamTypeResolver := ⟨streamType, .disconnected⟩

def resolve (resolver : StreamTypeResolver) : StreamProtocol :=
  match resolver.streamType with
  | .auto => if resolver.connectionType.isDirect then .videoMain else .videoSub
  | .main => .videoMain
  | .sub => .videoSub
  | .third => .videoThird

def shouldUpgradeStream (resolver : StreamTypeResolver) (oldConn : ConnectionType) : Bool :=
  resolver.streamType == .auto && oldConn.isRelay && resolver.connectionType.isDirect

end StreamTypeResolver

structure ConnectionQuality where
  connectionType : ConnectionType
  activeConnections : Nat
  directUpgraded : Bool
  lastDcutrResult : Option (Except String Unit)

inductive MediaPlayerEvent where
  | disconnected (reason : String)
  | directUpgraded (viaLan : Bool)

inductive ViewerEvent where
  | connecting
  | connected (connectionType : String)
  | streamReady
  | directUpgraded (connectionType : String)
  | disconnected
  | error

inductive Output (Peer : Type) where
  | openStream (peer : Peer) (protocol : StreamProtocol)
  | closeConnection (connection : Nat)
  | report (event : ViewerEvent)

structure Connection (Peer : Type) where
  id : Nat
  peer : Peer
  addr : Multiaddr
  deriving DecidableEq

/-- Before the connect command, in the loop that waits for a relay, in
`wait_for_connection_and_classify`, in the main loop, or over after an error. -/
inductive Phase where
  | idle | dialling | classifying | running | ended
  deriving DecidableEq

structure Viewer (Peer : Type) where
  phase : Phase
  streamResolver : StreamTypeResolver
  connectionQuality : ConnectionQuality
  deviceCam : Option Peer
  relayConnectionId : Option Nat
  connected : Bool
  noAudio : Bool
  /-- The stream that the video task reads, and the connection it runs over. -/
  video : Option (StreamProtocol × Nat)
  audio : Option Nat
  control : Option Nat
  /-- Events that were sent and not taken by the bridge yet. -/
  events : List MediaPlayerEvent
  connections : List (Connection Peer)
  nextConnection : Nat

/-- For each `open_stream`, the connection that the stream is opened on: a random one to the peer. There is
none when the call fails, or is dropped while it waits. -/
structure Opens where
  video : Option Nat
  audio : Option Nat
  control : Option Nat

inductive Input (Peer : Type) where
  | connect (streamType : StreamType)
  /-- The serial is resolved, or the peer id was given; the camera is dialled. -/
  | resolved (deviceCam : Peer)
  | connectFailed
  | connectionEstablished (peer : Peer) (addr : Multiaddr) (opens : Opens)
  | connectionClosed (connection : Nat)
  | dcutr (result : Except String Unit)
  | pollEvent

namespace Viewer

variable {Peer : Type}

def new (noAudio : Bool) : Viewer Peer where
  phase := .idle
  streamResolver := .new .auto
  connectionQuality := ⟨.disconnected, 0, false, none⟩
  deviceCam := none
  relayConnectionId := none
  connected := false
  noAudio := noAudio
  video := none
  audio := none
  control := none
  events := []
  connections := []
  nextConnection := 0

def updateConnectionType (viewer : Viewer Peer) (connectionType : ConnectionType) : Viewer Peer :=
  { viewer with streamResolver := { viewer.streamResolver with connectionType := connectionType } }

def countConnection (viewer : Viewer Peer) : Viewer Peer :=
  { viewer with
    connectionQuality :=
      { viewer.connectionQuality with activeConnections := viewer.connectionQuality.activeConnections + 1 } }

/-- The connection type is recorded twice: for the statistics and for the choice of a stream. A direct
connection that is not over QUIC changes neither. -/
def noteConnectionType (viewer : Viewer Peer) (connection : Nat) (addr : Multiaddr) : Viewer Peer :=
  if addr.isCircuit then
    { viewer.updateConnectionType .relayCircuit with
      connectionQuality := { viewer.connectionQuality with connectionType := .relayCircuit }
      relayConnectionId := some connection }
  else if addr.isQuic then
    if addr.isLan then
      { viewer.updateConnectionType .lanDirect with
        connectionQuality := { viewer.connectionQuality with connectionType := .lanDirect, directUpgraded := true } }
    else
      { viewer.updateConnectionType .quicDirect with
        connectionQuality := { viewer.connectionQuality with connectionType := .quicDirect } }
  else viewer

variable [DecidableEq Peer]

section

variable (viewer : Viewer Peer) (peer : Peer)

/-- A stream can only be opened on a connection to the peer. -/
def openStream (choice : Option Nat) : Option Nat :=
  choice.filter fun id => viewer.connections.any fun connection =>
    connection.id == id && connection.peer == peer

def reopenAudio (cam : Peer) (choice : Option Nat) : List (Output Peer) × Viewer Peer :=
  if viewer.noAudio then ([], viewer)
  else ([.openStream cam .audio], { viewer with audio := (viewer.openStream cam choice).or viewer.audio })

def reopenControl (cam : Peer) (choice : Option Nat) : List (Output Peer) × Viewer Peer :=
  ([.openStream cam .control], { viewer with control := (viewer.openStream cam choice).or viewer.control })

/-- The switch to the main stream over a direct connection. If the main stream cannot be opened the video
stays on the old one. -/
def upgradeStream (cam : Peer) (opens : Opens) : List (Output Peer) × Viewer Peer :=
  match viewer.openStream cam opens.video with
  | none => ([.openStream cam .videoMain], viewer)
  | some id =>
    let closes : List (Output Peer) := viewer.relayConnectionId.toList.map .closeConnection
    let viewer : Viewer Peer :=
      { viewer with
        video := some (.videoMain, id)
        events := viewer.events ++ [.directUpgraded (viewer.connectionQuality.connectionType == .lanDirect)]
        relayConnectionId := none }
    let (audio, viewer) := viewer.reopenAudio cam opens.audio
    let (control, viewer) := viewer.reopenControl cam opens.control
    (.openStream cam .videoMain :: closes ++ audio ++ control, viewer)

/-- The arm of `poll_swarm` for a new connection of any peer. -/
def onEstablished (connection : Nat) (addr : Multiaddr) (opens : Opens) : List (Output Peer) × Viewer Peer :=
  let oldConnType := viewer.streamResolver.connectionType
  let viewer := viewer.countConnection.noteConnectionType connection addr
  if viewer.deviceCam = some peer ∧ viewer.streamResolver.shouldUpgradeStream oldConnType then
    viewer.upgradeStream peer opens
  else ([], viewer)

/-- The arm of `poll_swarm` for a closed connection of any peer, of which `numEstablished` remain. -/
def onClosed [ToString Peer] (viewer : Viewer Peer) (peer : Peer) (numEstablished : Nat) : Viewer Peer :=
  let quality := { viewer.connectionQuality with activeConnections := numEstablished }
  if numEstablished = 0 then
    { viewer with
      connectionQuality := { quality with connectionType := .disconnected, directUpgraded := false }
      connected := false
      events := viewer.events ++ [.disconnected (if viewer.deviceCam = some peer
        then "DeviceCam connection closed" else "Connection to " ++ toString peer ++ " closed")] }
  else { viewer with connectionQuality := quality }

/-- `wait_for_connection_and_classify`. -/
def classify (addr : Multiaddr) : ConnectionType :=
  if addr.isCircuit then .relayCircuit
  else if addr.isQuic then if addr.isLan then .lanDirect else .quicDirect
  else .tcpDirect

def noteClassified (connection : Nat) (addr : Multiaddr) : Viewer Peer :=
  { viewer.updateConnectionType (classify addr) with
    relayConnectionId := if addr.isCircuit then some connection else viewer.relayConnectionId }

/-- The end of `connect_with_options`, which opens the streams. -/
def startStreams (cam : Peer) (opens : Opens) : List (Output Peer) × Viewer Peer :=
  let protocol := viewer.streamResolver.resolve
  match viewer.openStream cam opens.video with
  | none => ([.openStream cam protocol, .report .error], { viewer with phase := .ended })
  | some id =>
    let viewer := { viewer with video := some (protocol, id) }
    let (audio, viewer) := viewer.reopenAudio cam opens.audio
    let (control, viewer) := viewer.reopenControl cam opens.control
    (.openStream cam protocol :: audio ++ control ++ [.report (.connected "relay"), .report .streamReady],
      { viewer with connected := true, phase := .running })

/-- The bridge's handling of an event; after a disconnect the swarm is built anew and connected again. -/
def onEvent : MediaPlayerEvent → List (Output Peer) × Viewer Peer
  | .disconnected _ =>
    ([.report .disconnected, .report .connecting], { viewer with
        phase := .dialling
        streamResolver := .new viewer.streamResolver.streamType
        video := none
        audio := none
        control := none
        connections := [] })
  | .directUpgraded viaLan => ([.report (.directUpgraded (if viaLan then "LAN direct" else "DCUtR"))], viewer)

def withConnection (addr : Multiaddr) : Viewer Peer :=
  { viewer with
    connections := viewer.connections ++ [⟨viewer.nextConnection, peer, addr⟩]
    nextConnection := viewer.nextConnection + 1 }

/-- While connecting, the first connection to the camera decides which stream is opened; those of other
peers pass unnoticed. -/
def established (addr : Multiaddr) (opens : Opens) : List (Output Peer) × Viewer Peer :=
  let id := viewer.nextConnection
  let viewer := viewer.withConnection peer addr
  match viewer.phase with
  | .running => viewer.onEstablished peer id addr opens
  | .classifying =>
    if viewer.deviceCam = some peer then (viewer.noteClassified id addr).startStreams peer opens
    else ([], viewer)
  | _ => ([], viewer)

end

def closed [ToString Peer] (viewer : Viewer Peer) (id : Nat) : Viewer Peer :=
  match viewer.connections.find? fun connection => connection.id == id with
  | none => viewer
  | some connection =>
    let viewer := { viewer with connections := viewer.connections.erase connection }
    if viewer.phase = .running then
      viewer.onClosed connection.peer (viewer.connections.countP fun other => other.peer == connection.peer)
    else viewer

def step [ToString Peer] (viewer : Viewer Peer) : Input Peer → List (Output Peer) × Viewer Peer
  | .connect streamType =>
    if viewer.phase = .idle then
      ([.report .connecting], { viewer with phase := .dialling, streamResolver := .new streamType })
    else ([], viewer)
  | .resolved deviceCam =>
    if viewer.phase = .dialling then
      ([], { viewer with phase := .classifying, deviceCam := some deviceCam })
    else ([], viewer)
  | .connectFailed =>
    if viewer.phase = .dialling ∨ viewer.phase = .classifying then
      ([.report .error], { viewer with phase := .ended })
    else ([], viewer)
  | .connectionEstablished peer addr opens => viewer.established peer addr opens
  | .connectionClosed id => ([], viewer.closed id)
  | .dcutr result =>
    if viewer.phase = .running then
      match result with
      | .ok () =>
        ([], { viewer with connectionQuality := { viewer.connectionQuality with
          directUpgraded := true
          connectionType := .quicDirect
          lastDcutrResult := some (.ok ()) } })
      | .error message =>
        ([], { viewer with connectionQuality := { viewer.connectionQuality with
          lastDcutrResult := some (.error message) } })
    else ([], viewer)
  | .pollEvent =>
    if viewer.phase = .running then
      match viewer.events with
      | [] => ([], viewer)
      | event :: events => { viewer with events := events }.onEvent event
    else ([], viewer)

end Viewer
end RustLibp2p.Camera.ViewerLoop
