import Mathlib.Algebra.Ring.Nat
import RustLibp2p.OrdMap

/-! The behaviour of a circuit relay server. The handlers of the connections report requests and their
outcomes; the behaviour answers with commands to handlers and with events for the user, which it queues.
The advertised status and the external addresses stay as they are. -/

namespace RustLibp2p.Relay
open OrdMap

abbrev ConnectionId := Nat

abbrev CircuitId := Nat

/-- The components of an address that the relay looks at. -/
inductive Protocol (Peer : Type) where
  | p2p (peer : Peer)
  | p2pCircuit
  | other (name : String)
  deriving DecidableEq

abbrev Multiaddr (Peer : Type) := List (Protocol Peer)

variable {Peer L : Type}

def isRelayed (addr : Multiaddr Peer) : Bool :=
  addr.any fun protocol =>
    match protocol with
    | .p2pCircuit => true
    | _ => false

inductive ConnectedPoint (Peer : Type) where
  | dialer (address : Multiaddr Peer)
  | listener (localAddr sendBackAddr : Multiaddr Peer)

namespace ConnectedPoint

def isRelayed : ConnectedPoint Peer → Bool
  | dialer address => Relay.isRelayed address
  | listener localAddr _ => Relay.isRelayed localAddr

def getRemoteAddress : ConnectedPoint Peer → Multiaddr Peer
  | dialer address => address
  | listener _ sendBackAddr => sendBackAddr

end ConnectedPoint

inductive Status where
  | ok
  | reservationRefused
  | resourceLimitExceeded
  | permissionDenied
  | connectionFailed
  | noReservation
  | malformedMessage
  | unexpectedMessage
  deriving DecidableEq

inductive IoError where
  | timedOut
  | connectionAborted
  | other (message : String)

inductive HopError where
  | codec (message : String)
  | streamClosed
  | parsePeerId
  | missingPeer
  | unexpectedTypeStatus
  | unexpectedType (number : String)
  deriving DecidableEq

inductive ProtocolViolation where
  | codec (message : String)
  | missingStatusField
  | unexpectedTypeConnect
  | unexpectedType (number : String)
  | unexpectedStatus (name : String)

inductive StopError where
  | resourceLimitExceeded
  | permissionDenied
  | unsupported
  | io (error : IoError)
  | violation (violation : ProtocolViolation)

def StopError.toStatus : StopError → Status
  | resourceLimitExceeded => .resourceLimitExceeded
  | permissionDenied => .permissionDenied
  | unsupported => .connectionFailed
  | io _ => .connectionFailed
  | violation (.unexpectedStatus _) => .unexpectedMessage
  | violation .unexpectedTypeConnect => .unexpectedMessage
  | violation _ => .malformedMessage

/-- A request for a circuit, of which only the destination matters here. -/
structure CircuitReq (Peer : Type) where
  dst : Peer

inductive HandlerEvent (Peer : Type) where
  | reservationReqReceived (endpoint : ConnectedPoint Peer) (renewed : Bool)
  | reservationReqAccepted (renewed : Bool)
  | reservationReqAcceptFailed (error : HopError)
  | reservationReqDenied (status : Status)
  | reservationReqDenyFailed (error : HopError)
  | reservationTimedOut
  | circuitReqReceived (req : CircuitReq Peer) (endpoint : ConnectedPoint Peer)
  | circuitReqDenied (circuit : Option CircuitId) (dst : Peer) (status : Status)
  | circuitReqDenyFailed (circuit : Option CircuitId) (dst : Peer) (error : HopError)
  | circuitReqAccepted (circuit : CircuitId) (dst : Peer)
  | circuitReqAcceptFailed (circuit : CircuitId) (dst : Peer) (error : HopError)
  | outboundConnectNegotiated (circuit : CircuitId) (src : Peer) (srcConnection : ConnectionId) (req : CircuitReq Peer)
  | outboundConnectNegotiationFailed (circuit : CircuitId) (src : Peer) (srcConnection : ConnectionId)
      (req : CircuitReq Peer) (status : Status) (error : StopError)
  | circuitClosed (circuit : CircuitId) (dst : Peer) (error : Option IoError)

inductive HandlerIn (Peer : Type) where
  | acceptReservationReq (addrs : List (Multiaddr Peer))
  | denyReservationReq (status : Status)
  | denyCircuitReq (circuit : Option CircuitId) (req : CircuitReq Peer) (status : Status)
  | negotiateOutboundConnect (circuit : CircuitId) (req : CircuitReq Peer) (src : Peer) (srcConnection : ConnectionId)
  | acceptAndDriveCircuit (circuit : CircuitId) (dst : Peer) (req : CircuitReq Peer)

inductive Event (Peer : Type) where
  | reservationReqAccepted (src : Peer) (renewed : Bool)
  | reservationReqAcceptFailed (src : Peer) (error : HopError)
  | reservationReqDenied (src : Peer) (status : Status)
  | reservationReqDenyFailed (src : Peer) (error : HopError)
  | reservationClosed (src : Peer)
  | reservationTimedOut (src : Peer)
  | circuitReqDenied (src dst : Peer) (status : Status)
  | circuitReqDenyFailed (src dst : Peer) (error : HopError)
  | circuitReqAccepted (src dst : Peer)
  | circuitReqOutboundConnectFailed (src dst : Peer) (error : StopError)
  | circuitReqAcceptFailed (src dst : Peer) (error : HopError)
  | circuitClosed (src dst : Peer) (error : Option IoError)

/-- What the behaviour queues for the swarm. A command goes by the id of the connection; the peer is that of the
request. -/
inductive Action (Peer : Type) where
  | notifyHandler (peer : Peer) (connection : ConnectionId) (command : HandlerIn Peer)
  | generateEvent (event : Event Peer)

inductive Reservation where
  | active
  | none
  deriving DecidableEq

def Reservation.isActive (reservation : Reservation) : Bool := reservation = active

inductive CircuitStatus where
  | accepting
  | accepted
  deriving DecidableEq

structure Circuit (Peer : Type) where
  srcPeerId : Peer
  srcConnectionId : ConnectionId
  dstPeerId : Peer
  dstConnectionId : ConnectionId
  status : CircuitStatus

namespace Circuit

variable [DecidableEq Peer]

section

variable (circuit : Circuit Peer) (peer : Peer) (connection : ConnectionId)

def isSrc : Bool := circuit.srcPeerId = peer && circuit.srcConnectionId = connection

def isDst : Bool := circuit.dstPeerId = peer && circuit.dstConnectionId = connection

def touches : Bool := circuit.isSrc peer connection || circuit.isDst peer connection

def involves : Bool := circuit.srcPeerId = peer || circuit.dstPeerId = peer

end
end Circuit

structure CircuitsTracker (Peer : Type) where
  nextId : CircuitId
  circuits : OrdMap CircuitId (Circuit Peer)

namespace CircuitsTracker

def empty : CircuitsTracker Peer := ⟨0, .empty⟩

section

variable (tracker : CircuitsTracker Peer)

def len : Nat := tracker.circuits.entries.length

def insert (circuit : Circuit Peer) : CircuitsTracker Peer :=
  ⟨tracker.nextId + 1, tracker.circuits.insert tracker.nextId circuit⟩

def accepted (circuit : CircuitId) : CircuitsTracker Peer :=
  { tracker with circuits := tracker.circuits.adjust circuit fun known => { known with status := .accepted } }

def remove (circuit : CircuitId) : CircuitsTracker Peer := { tracker with circuits := tracker.circuits.erase circuit }

end

variable [DecidableEq Peer]

/-- The circuits that end at a connection, and the others. -/
def removeByConnection (tracker : CircuitsTracker Peer) (peer : Peer) (connection : ConnectionId) :
    List (Circuit Peer) × CircuitsTracker Peer :=
  ((tracker.circuits.entries.filter fun entry => entry.2.touches peer connection).map Prod.snd,
    { tracker with circuits :=
        ⟨tracker.circuits.entries.filter fun entry => !entry.2.touches peer connection,
          tracker.circuits.sorted.sublist List.filter_sublist⟩ })

def numCircuitsOfPeer (tracker : CircuitsTracker Peer) (peer : Peer) : Nat :=
  tracker.circuits.entries.countP fun entry => entry.2.involves peer

end CircuitsTracker

/-- The limits, with the answer of a rate limiter, which may be any that the user gives. -/
structure Config (Peer L : Type) where
  maxReservations : Nat
  maxReservationsPerPeer : Nat
  maxCircuits : Nat
  maxCircuitsPerPeer : Nat
  tryNext : L → Peer → Multiaddr Peer → Nat → Bool × L

def Config.default (tryNext : L → Peer → Multiaddr Peer → Nat → Bool × L) : Config Peer L := ⟨128, 4, 16, 4, tryNext⟩

/-- All rate limiters are asked in turn, until one refuses. -/
def allAllow (tryNext : L → Peer → Multiaddr Peer → Nat → Bool × L) (peer : Peer) (addr : Multiaddr Peer) (now : Nat) :
    List L → Bool × List L
  | [] => (true, [])
  | limiter :: limiters =>
    match tryNext limiter peer addr now with
    | (false, limiter) => (false, limiter :: limiters)
    | (true, limiter) =>
      let (allowed, limiters) := allAllow tryNext peer addr now limiters
      (allowed, limiter :: limiters)

/-- The order in which a hash map gives its entries is not known; it may be another one at every call. -/
structure IterOrder where
  order : List (ConnectionId × Reservation) → List (ConnectionId × Reservation)
  perm : ∀ entries, (order entries).Perm entries

def IterOrder.stored : IterOrder := ⟨id, fun entries => .refl entries⟩

/-- The branches that must not be reached, of the behaviour and of the handlers. -/
inductive Panic where
  | relayedEndpoint
  | invalidConnection
  | untrackedReservation
  | openedWithoutPendingCommand
  | failedWithoutPendingCommand
  | noPendingConnect
  /-- A command for a connection whose handler does nothing. -/
  | mismatchedHandler
  deriving DecidableEq

variable [LinearOrder Peer]

structure Behaviour (Peer L : Type) [LinearOrder Peer] where
  config : Config Peer L
  localPeerId : Peer
  connections : OrdMap Peer (OrdMap ConnectionId Reservation)
  circuits : CircuitsTracker Peer
  queuedActions : List (Action Peer)
  externalAddresses : List (Multiaddr Peer)
  reservationRateLimiters : List L
  circuitSrcRateLimiters : List L

namespace Behaviour

def new (localPeerId : Peer) (config : Config Peer L) (externalAddresses : List (Multiaddr Peer))
    (reservationRateLimiters circuitSrcRateLimiters : List L) : Behaviour Peer L where
  config := config
  localPeerId := localPeerId
  connections := .empty
  circuits := .empty
  queuedActions := []
  externalAddresses := externalAddresses
  reservationRateLimiters := reservationRateLimiters
  circuitSrcRateLimiters := circuitSrcRateLimiters

section

variable (behaviour : Behaviour Peer L)

def pushAction (action : Action Peer) : Behaviour Peer L :=
  { behaviour with queuedActions := behaviour.queuedActions ++ [action] }

def pushEvent (event : Event Peer) : Behaviour Peer L :=
  behaviour.pushAction (.generateEvent event)

def connectionsOf (peer : Peer) : OrdMap ConnectionId Reservation :=
  (behaviour.connections.get? peer).getD .empty

end

section

variable (behaviour : Behaviour Peer L) (peer : Peer) (connection : ConnectionId)

def reservation? : Option Reservation := (behaviour.connectionsOf peer).get? connection

def setReservation (reservation : Reservation) : Behaviour Peer L :=
  { behaviour with
    connections := behaviour.connections.insert peer ((behaviour.connectionsOf peer).insert connection reservation) }

/-- Forget a connection of a known peer, and the peer with its last one. -/
def dropConnection : Behaviour Peer L :=
  let rest := (behaviour.connectionsOf peer).erase connection
  { behaviour with
    connections :=
      if rest.entries = [] then behaviour.connections.erase peer else behaviour.connections.insert peer rest }

def onConnectionEstablished : Behaviour Peer L := behaviour.setReservation peer connection .none

/-- The circuits of a closed connection are gone; the user hears of those that were accepted. -/
def closeCircuits : Behaviour Peer L :=
  let (removed, circuits) := behaviour.circuits.removeByConnection peer connection
  let closed := removed.filter fun circuit => circuit.status = .accepted
  { behaviour with
    circuits := circuits
    queuedActions := behaviour.queuedActions ++ closed.map fun circuit =>
      .generateEvent (.circuitClosed circuit.srcPeerId circuit.dstPeerId (some .connectionAborted)) }

/-- A closed connection is forgotten if its peer is known. -/
def forgetConnection : Behaviour Peer L :=
  match behaviour.connections.get? peer with
  | none => behaviour
  | some known =>
    let forgotten := behaviour.dropConnection peer connection
    if (known.get? connection).isSome then forgotten.pushEvent (.reservationClosed peer) else forgotten

def onConnectionClosed : Behaviour Peer L := (behaviour.forgetConnection peer connection).closeCircuits peer connection

def activeCount (connections : OrdMap ConnectionId Reservation) : Nat :=
  connections.entries.countP fun entry => entry.2.isActive

def reservationsOf : Nat := activeCount (behaviour.connectionsOf peer)

def reservationsTotal : Nat := (behaviour.connections.entries.map fun entry => activeCount entry.2).sum

/-- The external addresses with the local peer id at the end. -/
def advertised : List (Multiaddr Peer) :=
  behaviour.externalAddresses.filterMap fun addr =>
    match addr.getLast? with
    | none => none
    | some (.p2p _) => some addr
    | some _ => some (addr ++ [.p2p behaviour.localPeerId])

/-- Whether a reservation is within the limits. The rate limiters are asked last. -/
def admitReservation (source : Peer) (endpoint : ConnectedPoint Peer) (renewed : Bool)
    (now : Nat) : Bool × Behaviour Peer L :=
  if (!renewed && behaviour.reservationsOf source > behaviour.config.maxReservationsPerPeer) ||
      behaviour.reservationsTotal ≥ behaviour.config.maxReservations then (false, behaviour)
  else
    let (allowed, limiters) := allAllow behaviour.config.tryNext source endpoint.getRemoteAddress now
      behaviour.reservationRateLimiters
    (allowed, { behaviour with reservationRateLimiters := limiters })

end

section

variable (behaviour : Behaviour Peer L) (source : Peer) (connection : ConnectionId)

def onReservationReqReceived
    (endpoint : ConnectedPoint Peer) (renewed : Bool) (now : Nat) : Except Panic (Behaviour Peer L) :=
  if endpoint.isRelayed then .error .relayedEndpoint
  else
    let (admitted, behaviour) := behaviour.admitReservation source endpoint renewed now
    if admitted then
      let behaviour := behaviour.setReservation source connection .active
      .ok (behaviour.pushAction (.notifyHandler source connection (.acceptReservationReq behaviour.advertised)))
    else
      .ok (behaviour.pushAction (.notifyHandler source connection (.denyReservationReq .resourceLimitExceeded)))

def onReservationReqAccepted (renewed : Bool) : Except Panic (Behaviour Peer L) :=
  if (behaviour.connections.get? source).isNone then .error .invalidConnection
  else
    .ok ((behaviour.setReservation source connection .active).pushEvent (.reservationReqAccepted source renewed))

def onReservationTimedOut : Except Panic (Behaviour Peer L) :=
  if (behaviour.connections.get? source).isNone then .error .untrackedReservation
  else .ok ((behaviour.dropConnection source connection).pushEvent (.reservationTimedOut source))

/-- Whether a circuit from the peer is within the limits. -/
def admitCircuit (endpoint : ConnectedPoint Peer) (now : Nat) : Bool × Behaviour Peer L :=
  if behaviour.circuits.numCircuitsOfPeer source > behaviour.config.maxCircuitsPerPeer ||
      behaviour.circuits.len ≥ behaviour.config.maxCircuits then (false, behaviour)
  else
    let (allowed, limiters) := allAllow behaviour.config.tryNext source endpoint.getRemoteAddress now
      behaviour.circuitSrcRateLimiters
    (allowed, { behaviour with circuitSrcRateLimiters := limiters })

def denyCircuit (req : CircuitReq Peer) (status : Status) : Behaviour Peer L :=
  behaviour.pushAction (.notifyHandler source connection (.denyCircuitReq none req status))

/-- The circuit goes to the first connection of the destination that the iteration gives. -/
def forwardCircuit (req : CircuitReq Peer) (iter : IterOrder) : Behaviour Peer L :=
  match (iter.order (behaviour.connectionsOf req.dst).entries).head? with
  | some (dstConnection, .active) =>
    let circuit : Circuit Peer :=
      { srcPeerId := source
        srcConnectionId := connection
        dstPeerId := req.dst
        dstConnectionId := dstConnection
        status := .accepting }
    let forwarded := { behaviour with circuits := behaviour.circuits.insert circuit }
    -- the swarm finds the connection by its id alone
    forwarded.pushAction (.notifyHandler source dstConnection
      (.negotiateOutboundConnect behaviour.circuits.nextId req source connection))
  | some (_, .none) => behaviour.denyCircuit source connection req .noReservation
  | none => behaviour.denyCircuit source connection req .noReservation

def onCircuitReqReceived (req : CircuitReq Peer) (endpoint : ConnectedPoint Peer) (now : Nat) (iter : IterOrder) :
    Except Panic (Behaviour Peer L) :=
  if endpoint.isRelayed then .error .relayedEndpoint
  else
    let (admitted, behaviour) := behaviour.admitCircuit source endpoint now
    if admitted then .ok (behaviour.forwardCircuit source connection req iter)
    else .ok (behaviour.denyCircuit source connection req .resourceLimitExceeded)

def removeCircuit (circuit : CircuitId) : Behaviour Peer L :=
  { behaviour with circuits := behaviour.circuits.remove circuit }

def removeCircuit? : Option CircuitId → Behaviour Peer L
  | some circuit => behaviour.removeCircuit circuit
  | none => behaviour

def acceptedCircuit (circuit : CircuitId) : Behaviour Peer L :=
  { behaviour with circuits := behaviour.circuits.accepted circuit }

/-- An event of the handler of a connection, at a time and with an order of iteration. -/
def onConnectionHandlerEvent (now : Nat) (iter : IterOrder) : HandlerEvent Peer → Except Panic (Behaviour Peer L)
  | .reservationReqReceived endpoint renewed =>
    behaviour.onReservationReqReceived source connection endpoint renewed now
  | .reservationReqAccepted renewed => behaviour.onReservationReqAccepted source connection renewed
  | .reservationReqAcceptFailed error => .ok (behaviour.pushEvent (.reservationReqAcceptFailed source error))
  | .reservationReqDenied status => .ok (behaviour.pushEvent (.reservationReqDenied source status))
  | .reservationReqDenyFailed error => .ok (behaviour.pushEvent (.reservationReqDenyFailed source error))
  | .reservationTimedOut => behaviour.onReservationTimedOut source connection
  | .circuitReqReceived req endpoint => behaviour.onCircuitReqReceived source connection req endpoint now iter
  | .circuitReqDenied circuit dst status =>
    .ok ((behaviour.removeCircuit? circuit).pushEvent (.circuitReqDenied source dst status))
  | .circuitReqDenyFailed circuit dst error =>
    .ok ((behaviour.removeCircuit? circuit).pushEvent (.circuitReqDenyFailed source dst error))
  | .outboundConnectNegotiated circuit src srcConnection req =>
    .ok (behaviour.pushAction (.notifyHandler src srcConnection (.acceptAndDriveCircuit circuit source req)))
  | .outboundConnectNegotiationFailed circuit src srcConnection req status error =>
    .ok ((behaviour.pushAction (.notifyHandler src srcConnection (.denyCircuitReq (some circuit) req status))).pushEvent
      (.circuitReqOutboundConnectFailed src source error))
  | .circuitReqAccepted circuit dst =>
    .ok ((behaviour.acceptedCircuit circuit).pushEvent (.circuitReqAccepted source dst))
  | .circuitReqAcceptFailed circuit dst error =>
    .ok ((behaviour.removeCircuit circuit).pushEvent (.circuitReqAcceptFailed source dst error))
  | .circuitClosed circuit dst error =>
    .ok ((behaviour.removeCircuit circuit).pushEvent (.circuitClosed source dst error))

def poll : Option (Action Peer × Behaviour Peer L) :=
  match behaviour.queuedActions with
  | [] => none
  | action :: actions => some (action, { behaviour with queuedActions := actions })

theorem reservation?_setReservation (peer : Peer) (connection : ConnectionId)
    (reservation : Reservation) (peer' : Peer) (connection' : ConnectionId) :
    (behaviour.setReservation peer connection reservation).reservation? peer' connection' =
      if peer' = peer ∧ connection' = connection then some reservation
      else behaviour.reservation? peer' connection' := by
  unfold reservation? setReservation connectionsOf
  rw [get?_insert]
  by_cases hp : peer' = peer
  · rw [if_pos hp, Option.getD_some, get?_insert, hp]
    simp
  · rw [if_neg hp, if_neg fun hb => hp hb.1]

theorem reservation?_dropConnection (peer : Peer) (connection : ConnectionId)
    (peer' : Peer) (connection' : ConnectionId) :
    (behaviour.dropConnection peer connection).reservation? peer' connection' =
      if peer' = peer ∧ connection' = connection then none else behaviour.reservation? peer' connection' := by
  have hr : ((behaviour.connectionsOf peer).erase connection).get? connection' =
      if connection' = connection then none else behaviour.reservation? peer connection' := get?_erase _ _ _
  unfold reservation? dropConnection
  by_cases hp : peer' = peer
  · subst hp
    simp only [true_and]
    refine Eq.trans ?_ hr
    unfold connectionsOf
    split_ifs with he
    · have hg : ((behaviour.connections.get? peer').getD .empty).erase connection = .empty := OrdMap.ext he
      rw [get?_erase, if_pos rfl, hg]
      rfl
    · rw [get?_insert, if_pos rfl, Option.getD_some]
  · rw [if_neg fun hb => hp hb.1]
    unfold connectionsOf
    dsimp only
    split_ifs
    · rw [get?_erase, if_neg hp]
    · rw [get?_insert, if_neg hp]

end

variable {connection : ConnectionId} {reservation : Reservation} {iter : IterOrder}

theorem isSome_of_reservation? {behaviour : Behaviour Peer L} {peer : Peer}
    (hr : behaviour.reservation? peer connection = some reservation) :
    (behaviour.connections.get? peer).isSome := by
  cases hp : behaviour.connections.get? peer with
  | some => rfl
  | none =>
    rw [reservation?, connectionsOf, hp] at hr
    cases hr

/-! ### What an event of a handler can do -/

def withLimiters (behaviour : Behaviour Peer L) (reservation circuitSrc : List L) : Behaviour Peer L :=
  { behaviour with reservationRateLimiters := reservation, circuitSrcRateLimiters := circuitSrc }

def circuitOf (source : Peer) (connection : ConnectionId) (dst : Peer)
    (dstConnection : ConnectionId) : Circuit Peer where
  srcPeerId := source
  srcConnectionId := connection
  dstPeerId := dst
  dstConnectionId := dstConnection
  status := .accepting

def insertCircuit (behaviour : Behaviour Peer L) (circuit : Circuit Peer) : Behaviour Peer L :=
  { behaviour with circuits := behaviour.circuits.insert circuit }

inductive Handles (behaviour : Behaviour Peer L) (source : Peer) (connection : ConnectionId) :
    HandlerEvent Peer → Behaviour Peer L → Prop where
  | reserved {endpoint : ConnectedPoint Peer} {renewed : Bool} {limiters : List L}
      (hpeer : renewed = false → behaviour.reservationsOf source ≤ behaviour.config.maxReservationsPerPeer)
      (htotal : behaviour.reservationsTotal < behaviour.config.maxReservations) :
      Handles behaviour source connection (.reservationReqReceived endpoint renewed)
        (((behaviour.withLimiters limiters behaviour.circuitSrcRateLimiters).setReservation source connection
          .active).pushAction (.notifyHandler source connection (.acceptReservationReq behaviour.advertised)))
  | refused {endpoint : ConnectedPoint Peer} {renewed : Bool} {limiters : List L} :
      Handles behaviour source connection (.reservationReqReceived endpoint renewed)
        ((behaviour.withLimiters limiters behaviour.circuitSrcRateLimiters).pushAction
          (.notifyHandler source connection (.denyReservationReq .resourceLimitExceeded)))
  | reservationAccepted {renewed : Bool} (hknown : (behaviour.connections.get? source).isSome) :
      Handles behaviour source connection (.reservationReqAccepted renewed)
        ((behaviour.setReservation source connection .active).pushEvent (.reservationReqAccepted source renewed))
  | timedOut (hknown : (behaviour.connections.get? source).isSome) :
      Handles behaviour source connection .reservationTimedOut
        ((behaviour.dropConnection source connection).pushEvent (.reservationTimedOut source))
  | forwarded {req : CircuitReq Peer} {endpoint : ConnectedPoint Peer} {limiters : List L}
    {dstConnection : ConnectionId}
      (hsource : behaviour.circuits.numCircuitsOfPeer source ≤ behaviour.config.maxCircuitsPerPeer)
      (htotal : behaviour.circuits.len < behaviour.config.maxCircuits)
      (hdst : behaviour.reservation? req.dst dstConnection = some .active) :
      Handles behaviour source connection (.circuitReqReceived req endpoint)
        (((behaviour.withLimiters behaviour.reservationRateLimiters limiters).insertCircuit
          (circuitOf source connection req.dst dstConnection)).pushAction (.notifyHandler source dstConnection
            (.negotiateOutboundConnect behaviour.circuits.nextId req source connection)))
  | circuitRefused {req : CircuitReq Peer} {endpoint : ConnectedPoint Peer} {limiters : List L} {status : Status} :
      Handles behaviour source connection (.circuitReqReceived req endpoint)
        ((behaviour.withLimiters behaviour.reservationRateLimiters limiters).denyCircuit source connection req status)
  | negotiated {circuit : CircuitId} {src : Peer} {srcConnection : ConnectionId} {req : CircuitReq Peer} :
      Handles behaviour source connection (.outboundConnectNegotiated circuit src srcConnection req)
        (behaviour.pushAction (.notifyHandler src srcConnection (.acceptAndDriveCircuit circuit source req)))
  | negotiationFailed {circuit : CircuitId} {src : Peer} {srcConnection : ConnectionId} {req : CircuitReq Peer}
      {status : Status} {error : StopError} :
      Handles behaviour source connection (.outboundConnectNegotiationFailed circuit src srcConnection req status error)
        ((behaviour.pushAction (.notifyHandler src srcConnection (.denyCircuitReq (some circuit) req status))).pushEvent
          (.circuitReqOutboundConnectFailed src source error))
  | circuitAccepted {circuit : CircuitId} {dst : Peer} :
      Handles behaviour source connection (.circuitReqAccepted circuit dst)
        ((behaviour.acceptedCircuit circuit).pushEvent (.circuitReqAccepted source dst))
  | circuitAcceptFailed {circuit : CircuitId} {dst : Peer} {error : HopError} :
      Handles behaviour source connection (.circuitReqAcceptFailed circuit dst error)
        ((behaviour.removeCircuit circuit).pushEvent (.circuitReqAcceptFailed source dst error))
  | circuitDenied {circuit : Option CircuitId} {dst : Peer} {status : Status} :
      Handles behaviour source connection (.circuitReqDenied circuit dst status)
        ((behaviour.removeCircuit? circuit).pushEvent (.circuitReqDenied source dst status))
  | circuitDenyFailed {circuit : Option CircuitId} {dst : Peer} {error : HopError} :
      Handles behaviour source connection (.circuitReqDenyFailed circuit dst error)
        ((behaviour.removeCircuit? circuit).pushEvent (.circuitReqDenyFailed source dst error))
  | circuitClosed {circuit : CircuitId} {dst : Peer} {error : Option IoError} :
      Handles behaviour source connection (.circuitClosed circuit dst error)
        ((behaviour.removeCircuit circuit).pushEvent (.circuitClosed source dst error))
  | acceptFailed {error : HopError} : Handles behaviour source connection (.reservationReqAcceptFailed error)
      (behaviour.pushEvent (.reservationReqAcceptFailed source error))
  | denied {status : Status} : Handles behaviour source connection (.reservationReqDenied status)
      (behaviour.pushEvent (.reservationReqDenied source status))
  | denyFailed {error : HopError} : Handles behaviour source connection (.reservationReqDenyFailed error)
      (behaviour.pushEvent (.reservationReqDenyFailed source error))

section

variable (behaviour : Behaviour Peer L) (source : Peer) (endpoint : ConnectedPoint Peer)
include behaviour source endpoint

theorem admitReservation_cases (renewed : Bool) (now : Nat) : ∃ limiters,
    (behaviour.admitReservation source endpoint renewed now).2 =
        behaviour.withLimiters limiters behaviour.circuitSrcRateLimiters ∧
      ((behaviour.admitReservation source endpoint renewed now).1 →
        (renewed = false → behaviour.reservationsOf source ≤ behaviour.config.maxReservationsPerPeer) ∧
        behaviour.reservationsTotal < behaviour.config.maxReservations) := by
  unfold admitReservation
  split_ifs with hl
  · exact ⟨behaviour.reservationRateLimiters, rfl, nofun⟩
  refine ⟨_, rfl, fun _ => ?_⟩
  rw [Bool.or_eq_true, not_or, Bool.and_eq_true, not_and] at hl
  obtain ⟨hp, ht⟩ := hl
  refine ⟨fun hn => ?_, ?_⟩
  · have hnot := hp (by rw [hn]; rfl)
    rw [decide_eq_true_eq] at hnot
    omega
  · rw [decide_eq_true_eq] at ht
    omega

theorem admitCircuit_cases (now : Nat) :
    ∃ limiters, (behaviour.admitCircuit source endpoint now).2 =
        behaviour.withLimiters behaviour.reservationRateLimiters limiters ∧
      ((behaviour.admitCircuit source endpoint now).1 →
        behaviour.circuits.numCircuitsOfPeer source ≤ behaviour.config.maxCircuitsPerPeer ∧
        behaviour.circuits.len < behaviour.config.maxCircuits) := by
  unfold admitCircuit
  split_ifs with hl
  · exact ⟨behaviour.circuitSrcRateLimiters, rfl, nofun⟩
  · refine ⟨_, rfl, fun _ => ?_⟩
    rw [Bool.or_eq_true, not_or, decide_eq_true_eq, decide_eq_true_eq] at hl
    omega

end

theorem mem_of_order_head? {conns : OrdMap ConnectionId Reservation}
    (hh : (iter.order conns.entries).head? = some (connection, reservation)) :
    conns.get? connection = some reservation :=
  get?_eq_some_iff.2 ((iter.perm _).subset (List.mem_of_mem_head? hh))

theorem handles_of_ok {behaviour after : Behaviour Peer L} {source : Peer} {now : Nat} {ev : HandlerEvent Peer}
    (hok : behaviour.onConnectionHandlerEvent source connection now iter ev = .ok after) :
    behaviour.Handles source connection ev after := by
  cases ev with
  | reservationReqReceived endpoint renewed =>
    unfold onConnectionHandlerEvent onReservationReqReceived at hok
    dsimp only at hok
    obtain ⟨limiters, ha, hl⟩ := behaviour.admitReservation_cases source endpoint renewed now
    split_ifs at hok with hr had
    all_goals
      cases hok
      rw [ha]
    · exact .reserved (hl had).1 (hl had).2
    · exact .refused
  | reservationReqAccepted =>
    unfold onConnectionHandlerEvent onReservationReqAccepted at hok
    split_ifs at hok with hn
    cases hok
    exact .reservationAccepted (Option.isSome_iff_ne_none.2 fun heq => hn (heq ▸ rfl))
  | reservationTimedOut =>
    unfold onConnectionHandlerEvent onReservationTimedOut at hok
    split_ifs at hok with hn
    cases hok
    exact .timedOut (Option.isSome_iff_ne_none.2 fun heq => hn (heq ▸ rfl))
  | circuitReqReceived req endpoint =>
    unfold onConnectionHandlerEvent onCircuitReqReceived at hok
    dsimp only at hok
    obtain ⟨limiters, ha, hl⟩ := behaviour.admitCircuit_cases source endpoint now
    split_ifs at hok with hr had
    · cases hok
      rw [ha]
      unfold forwardCircuit
      split
      · next hh => exact .forwarded (hl had).1 (hl had).2 (mem_of_order_head? hh)
      all_goals exact .circuitRefused
    · cases hok
      rw [ha]
      exact .circuitRefused
  | reservationReqAcceptFailed | reservationReqDenied | reservationReqDenyFailed | circuitReqDenied
  | circuitReqDenyFailed | circuitReqAccepted | circuitReqAcceptFailed | outboundConnectNegotiated
  | outboundConnectNegotiationFailed | circuitClosed =>
    cases hok
    constructor

end Behaviour
end RustLibp2p.Relay
