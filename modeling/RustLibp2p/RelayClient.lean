import RustLibp2p.RelayBehaviour
import RustLibp2p.Transition

/-! The handler of one connection of a relay client. A stream that is open goes to the request it was
asked for; this and the answer of the relay are part of how the request ends. -/

namespace RustLibp2p.Relay.Client
open Transition

/-- A listener of the transport; the channel to it goes by the same number. -/
abbrev ListenerId := Nat

/-- A dial of the transport, which waits for its circuit. -/
abbrev RequestId := Nat

variable {Peer : Type}

structure Limit where
  duration : Option Nat
  dataInBytes : Option Nat

inductive HandlerIn (Peer : Type) where
  | reserve (toListener : ListenerId)
  | establishCircuit (dst : Peer) (toDial : RequestId)

inductive HandlerEvent (Peer : Type) where
  | reservationReqAccepted (renewal : Bool) (limit : Option Limit)
  | outboundCircuitEstablished (limit : Option Limit)
  | inboundCircuitEstablished (src : Peer) (limit : Option Limit)

inductive HandlerOut (Peer : Type) where
  | outboundSubstreamRequest
  | notifyBehaviour (event : HandlerEvent Peer)

inductive ToListenerMsg (Peer : Type) where
  | reservation (addrs : List (Multiaddr Peer))
  | incomingRelayedConnection (src relay : Peer) (relayAddr : Multiaddr Peer)

inductive Reservation (Peer : Type) where
  | accepted (pendingMsgs : List (ToListenerMsg Peer)) (toListener : ListenerId)
  | renewing (pendingMsgs : List (ToListenerMsg Peer))
  | none

inductive SendOutcome where
  | sent
  | failed
  | pending
  deriving DecidableEq

namespace Reservation

def isSome : Reservation Peer → Bool
  | accepted _ _ => true
  | renewing _ => true
  | none => false

def pendingMsgs : Reservation Peer → List (ToListenerMsg Peer)
  | accepted pendingMsgs _ => pendingMsgs
  | renewing pendingMsgs => pendingMsgs
  | none => []

section

variable (reservation : Reservation Peer)

/-- The relay has granted a reservation: the event for the behaviour and the reservation from then on. -/
def onAccepted (addrs : List (Multiaddr Peer)) (toListener : ListenerId)
    (localPeerId : Peer) (limit : Option Limit) : HandlerEvent Peer × Reservation Peer :=
  (.reservationReqAccepted reservation.isSome limit, .accepted (reservation.pendingMsgs ++
      [.reservation (addrs.map fun addr => addr ++ [.p2pCircuit, .p2p localPeerId])]) toListener)

/-- The next message goes to the listener; a reservation whose listener is gone is given up. -/
def forwardMessages (outcome : SendOutcome) : Reservation Peer :=
  match reservation with
  | accepted (_ :: msgs) toListener =>
    match outcome with
    | .sent => accepted msgs toListener
    | .failed => none
    | .pending => reservation
  | _ => reservation

/-- Whether it is time to renew the reservation, and for which listener. -/
def poll (outcome : SendOutcome) (renewalTimeout : Bool) :
    Option ListenerId × Reservation Peer :=
  match reservation.forwardMessages outcome with
  | accepted pendingMsgs toListener =>
    if renewalTimeout then (some toListener, renewing pendingMsgs)
    else (Option.none, accepted pendingMsgs toListener)
  | other => (Option.none, other)

end
end Reservation

def maxNumberDenyingCircuit : Nat := 8

def maxConcurrentStreams : Nat := 10

structure Handler (Peer : Type) where
  localPeerId : Peer
  remotePeerId : Peer
  remoteAddr : Multiaddr Peer
  /-- How many streams are still to be asked for. -/
  queuedEvents : Nat
  inflightReserveRequests : List ListenerId
  inflightOutboundConnectRequests : List (Peer × RequestId)
  inflightInboundCircuitRequests : Nat
  inflightOutboundCircuitDenyRequests : Nat
  reservation : Reservation Peer

inductive ReserveOutcome (Peer : Type) where
  | granted (addrs : List (Multiaddr Peer)) (limit : Option Limit)
  | failed
  | timedOut

/-- How a request for a circuit ends; the dialer may be gone by then. -/
inductive ConnectOutcome where
  | established (limit : Option Limit) (dialerGone : Bool)
  | failed
  | timedOut

inductive InboundOutcome (Peer : Type) where
  | circuit (src : Peer) (limit : Option Limit)
  | failed
  | timedOut

/-- How the tasks of a handler answer in one turn of the loop of a poll; an index says which of several is done. -/
structure TurnAnswers (Peer : Type) where
  reserve : Option (Nat × ReserveOutcome Peer)
  connect : Option (Nat × ConnectOutcome)
  inbound : Option (InboundOutcome Peer)
  toListener : SendOutcome
  renewalTimeout : Bool
  denied : Bool

def TurnAnswers.idle : TurnAnswers Peer := ⟨none, none, none, .pending, false, false⟩

inductive Turn (Peer : Type) where
  | ready (out : HandlerOut Peer) (handler : Handler Peer)
  | again (handler : Handler Peer)
  | pending (handler : Handler Peer)

namespace Handler

def new (localPeerId remotePeerId : Peer) (remoteAddr : Multiaddr Peer) : Handler Peer where
  localPeerId := localPeerId
  remotePeerId := remotePeerId
  remoteAddr := remoteAddr
  queuedEvents := 0
  inflightReserveRequests := []
  inflightOutboundConnectRequests := []
  inflightInboundCircuitRequests := 0
  inflightOutboundCircuitDenyRequests := 0
  reservation := .none

section

variable (handler : Handler Peer)

/-- A request is dropped when too many are under way; the stream for it is asked for all the same. -/
def makeNewReservation (toListener : ListenerId) : Handler Peer :=
  { handler with
    queuedEvents := handler.queuedEvents + 1
    inflightReserveRequests :=
      if handler.inflightReserveRequests.length ≥ maxConcurrentStreams then handler.inflightReserveRequests
      else handler.inflightReserveRequests ++ [toListener] }

def establishNewCircuit (toDial : RequestId) (dst : Peer) : Handler Peer :=
  { handler with
    queuedEvents := handler.queuedEvents + 1
    inflightOutboundConnectRequests :=
      if handler.inflightOutboundConnectRequests.length ≥ maxConcurrentStreams then
        handler.inflightOutboundConnectRequests
      else handler.inflightOutboundConnectRequests ++ [(dst, toDial)] }

def onBehaviourEvent : HandlerIn Peer → Handler Peer
  | .reserve toListener => handler.makeNewReservation toListener
  | .establishCircuit dst toDial => handler.establishNewCircuit toDial dst

def onFullyNegotiatedInbound : Handler Peer :=
  if handler.inflightInboundCircuitRequests ≥ maxConcurrentStreams then handler
  else { handler with inflightInboundCircuitRequests := handler.inflightInboundCircuitRequests + 1 }

def insertToDenyFuts : Handler Peer :=
  if handler.inflightOutboundCircuitDenyRequests ≥ maxNumberDenyingCircuit then handler
  else { handler with inflightOutboundCircuitDenyRequests := handler.inflightOutboundCircuitDenyRequests + 1 }

def pollReserve (answer : Option (Nat × ReserveOutcome Peer)) : Option (Turn Peer) :=
  match answer with
  | none => none
  | some (index, outcome) =>
    match handler.inflightReserveRequests[index]? with
    | none => none
    | some toListener =>
      let done := { handler with inflightReserveRequests := handler.inflightReserveRequests.eraseIdx index }
      match outcome with
      | .granted addrs limit =>
        let (event, reservation) := handler.reservation.onAccepted addrs toListener handler.localPeerId limit
        some (.ready (.notifyBehaviour event) { done with reservation := reservation })
      | .failed => some (.again { done with reservation := .none })
      | .timedOut => some (.again { done with reservation := .none })

/-- A circuit that is not established in time takes the reservation with it. -/
def pollConnect (answer : Option (Nat × ConnectOutcome)) : Option (Turn Peer) :=
  match answer with
  | none => none
  | some (index, outcome) =>
    match handler.inflightOutboundConnectRequests[index]? with
    | none => none
    | some _ =>
      let done := { handler with
        inflightOutboundConnectRequests := handler.inflightOutboundConnectRequests.eraseIdx index }
      match outcome with
      | .established limit dialerGone =>
        if dialerGone then some (.again done)
        else some (.ready (.notifyBehaviour (.outboundCircuitEstablished limit)) done)
      | .failed => some (.again done)
      | .timedOut => some (.again { done with reservation := .none })

def pollInbound (answer : Option (InboundOutcome Peer)) : Option (Turn Peer) :=
  match handler.inflightInboundCircuitRequests, answer with
  | requests + 1, some outcome =>
    let done := { handler with inflightInboundCircuitRequests := requests }
    match outcome with
    | .circuit src limit =>
      let msg := .incomingRelayedConnection src handler.remotePeerId handler.remoteAddr
      match handler.reservation with
      | .accepted pendingMsgs toListener =>
        some (.ready (.notifyBehaviour (.inboundCircuitEstablished src limit))
          { done with reservation := .accepted (pendingMsgs ++ [msg]) toListener })
      | .renewing pendingMsgs =>
        some (.ready (.notifyBehaviour (.inboundCircuitEstablished src limit))
          { done with reservation := .renewing (pendingMsgs ++ [msg]) })
      | .none => some (.again done.insertToDenyFuts)
    | .failed => some (.again done)
    | .timedOut => some (.again done)
  | _, _ => none

/-- The last part of a turn: the reservation, and the circuits that are being denied. -/
def pollReservation (answers : TurnAnswers Peer) : Turn Peer :=
  match handler.reservation.poll answers.toListener answers.renewalTimeout with
  | (some toListener, reservation) =>
    let renewing : Handler Peer := { handler with reservation := reservation }
    .again (renewing.makeNewReservation toListener)
  | (none, reservation) =>
    match handler.inflightOutboundCircuitDenyRequests, answers.denied with
    | requests + 1, true =>
      .again { handler with reservation := reservation, inflightOutboundCircuitDenyRequests := requests }
    | _, _ => .pending { handler with reservation := reservation }

end

def turn (handler : Handler Peer) (answers : TurnAnswers Peer) : Turn Peer :=
  match handler.pollReserve answers.reserve with
  | some turn => turn
  | none =>
    match handler.pollConnect answers.connect with
    | some turn => turn
    | none =>
      match handler.queuedEvents with
      | events + 1 => .ready .outboundSubstreamRequest { handler with queuedEvents := events }
      | 0 =>
        match handler.pollInbound answers.inbound with
        | some turn => turn
        | none => handler.pollReservation answers

/-- The loop of a poll, with the answers of each turn. -/
def poll (handler : Handler Peer) : List (TurnAnswers Peer) → Option (HandlerOut Peer) × Handler Peer
  | [] => (none, handler)
  | answers :: rest =>
    match handler.turn answers with
    | .ready out handler => (some out, handler)
    | .again handler => handler.poll rest
    | .pending handler => (none, handler)

end Handler

/-! ### Which handler may still report a reservation -/

def HandlerEvent.isAccepted : HandlerEvent Peer → Bool
  | reservationReqAccepted _ _ => true
  | _ => false

def Reservation.isAccepted : Reservation Peer → Bool
  | accepted _ _ => true
  | _ => false

namespace Handler

/-- A request for a reservation is under way, or a reservation is there to be renewed. -/
def expects (handler : Handler Peer) : Bool := handler.inflightReserveRequests ≠ [] || handler.reservation.isAccepted

variable {handler after : Handler Peer} {reservation : Reservation Peer} {outcome : SendOutcome} {turn : Turn Peer}

theorem expects_of_request {idx : Nat} {toListener : ListenerId}
    (hr : handler.inflightReserveRequests[idx]? = some toListener) : handler.expects := by
  unfold expects
  cases hre : handler.inflightReserveRequests with
  | nil =>
    rw [hre] at hr
    cases hr
  | cons => rfl

theorem expects_mono (hr : after.inflightReserveRequests = handler.inflightReserveRequests)
    (hre : after.reservation.isAccepted → handler.reservation.isAccepted) :
    after.expects → handler.expects := by
  unfold expects
  rw [hr, Bool.or_eq_true, Bool.or_eq_true]
  exact Or.imp_right hre

theorem isAccepted_of_forwardMessages
    (ha : (reservation.forwardMessages outcome).isAccepted) : reservation.isAccepted := by
  unfold Reservation.forwardMessages at ha
  split at ha
  · rfl
  · exact ha

theorem isAccepted_of_poll {after : Reservation Peer} {renewalTimeout : Bool}
    {toListener : Option ListenerId} (hp : reservation.poll outcome renewalTimeout = (toListener, after)) :
    (toListener.isSome → reservation.isAccepted) ∧
      (after.isAccepted → reservation.isAccepted) := by
  unfold Reservation.poll at hp
  split at hp
  · next hf =>
    have ha : reservation.isAccepted := by
      refine @isAccepted_of_forwardMessages _ _ outcome ?_
      rw [hf]
      rfl
    exact ⟨fun _ => ha, fun _ => ha⟩
  · cases hp
    exact ⟨nofun, isAccepted_of_forwardMessages⟩

/-- What a turn may report or leave to be reported was to be expected. -/
def Expected (handler : Handler Peer) : Turn Peer → Prop
  | .ready out after =>
    (after.expects = true → handler.expects = true) ∧
      ∀ event, out = .notifyBehaviour event → event.isAccepted = true → handler.expects = true
  | .again after => after.expects = true → handler.expects = true
  | .pending after => after.expects = true → handler.expects = true

theorem expected_pollReserve {ans : Option (Nat × ReserveOutcome Peer)}
    (ht : handler.pollReserve ans = some turn) : handler.Expected turn := by
  unfold pollReserve at ht
  split at ht
  · cases ht
  split at ht
  · cases ht
  · next hr =>
    have he := expects_of_request hr
    split at ht
    · cases ht
      exact ⟨fun _ => he, fun _ _ _ => he⟩
    all_goals
      cases ht
      exact fun _ => he

theorem expected_pollConnect {ans : Option (Nat × ConnectOutcome)}
    (ht : handler.pollConnect ans = some turn) : handler.Expected turn := by
  unfold pollConnect at ht
  split at ht
  · cases ht
  split at ht
  · cases ht
  split at ht
  · split_ifs at ht
    · cases ht
      exact expects_mono rfl id
    cases ht
    refine ⟨expects_mono rfl id, ?_⟩
    rintro _ ⟨⟩ ha
    cases ha
  · cases ht
    exact expects_mono rfl id
  · cases ht
    exact expects_mono rfl nofun

theorem expected_pollInbound {ans : Option (InboundOutcome Peer)}
    (ht : handler.pollInbound ans = some turn) : handler.Expected turn := by
  unfold pollInbound at ht
  split at ht
  · split at ht
    · dsimp only at ht
      split at ht
      · next hr =>
        cases ht
        refine ⟨expects_mono rfl fun _ => hr ▸ rfl, ?_⟩
        rintro ev ⟨⟩ ha
        cases ha
      · cases ht
        refine ⟨expects_mono rfl nofun, ?_⟩
        rintro ev ⟨⟩ ha
        cases ha
      · cases ht
        unfold insertToDenyFuts
        split_ifs <;> exact expects_mono rfl id
    all_goals
      cases ht
      exact expects_mono rfl id
  · cases ht

theorem expected_pollReservation (answers : TurnAnswers Peer) : handler.Expected (handler.pollReservation answers) := by
  unfold pollReservation
  split
  · next hp =>
    have ha := (isAccepted_of_poll hp).1 rfl
    intro _
    rw [expects, ha, Bool.or_true]
  · next hp =>
    split <;> exact expects_mono rfl (isAccepted_of_poll hp).2

theorem expected_turn (answers : TurnAnswers Peer) : handler.Expected (handler.turn answers) := by
  unfold turn
  split
  · next ht => exact expected_pollReserve ht
  split
  · next ht => exact expected_pollConnect ht
  split
  · refine ⟨expects_mono rfl id, ?_⟩
    rintro _ ⟨⟩
  · split
    · next ht => exact expected_pollInbound ht
    · exact expected_pollReservation answers

theorem expects_of_poll {turns : List (TurnAnswers Peer)} {out : Option (HandlerOut Peer)}
    (hp : handler.poll turns = (out, after)) : (after.expects → handler.expects) ∧
      ∀ ev, out = some (.notifyBehaviour ev) → ev.isAccepted → handler.expects := by
  induction turns generalizing handler with
  | nil =>
    cases hp
    exact ⟨id, nofun⟩
  | cons answers turns ih =>
    have ht : handler.Expected (handler.turn answers) := expected_turn answers
    unfold poll at hp
    split at hp
    · next hr =>
      cases hp
      rw [hr] at ht
      refine ⟨ht.1, fun ev ho => ht.2 ev (Option.some.inj ho)⟩
    · next ha =>
      rw [ha] at ht
      have hre := ih hp
      exact ⟨fun h => ht (hre.1 h), fun ev ho hac => ht (hre.2 ev ho hac)⟩
    · next hpe =>
      cases hp
      rw [hpe] at ht
      exact ⟨ht, nofun⟩

end Handler

def Turn.handler : Turn Peer → Handler Peer
  | ready _ handler | again handler | pending handler => handler

def ReserveOutcome.isGranted : ReserveOutcome Peer → Bool
  | granted _ _ => true
  | _ => false

namespace Handler

section Isolated

variable (handler : Handler Peer) (current : ListenerId) (answers : TurnAnswers Peer)

/-- The reservation, which is that of the listener `current`, outlives the end of a request for a circuit, and a
request for a reservation that fails, unless it is one of that listener. -/
def Isolated : Prop :=
  (∀ turn, handler.pollConnect answers.connect = some turn → turn.handler.reservation = handler.reservation) ∧
  ∀ index outcome, answers.reserve = some (index, outcome) → outcome.isGranted = false →
    handler.inflightReserveRequests[index]? ≠ some current →
    ∀ turn, handler.pollReserve (some (index, outcome)) = some turn → turn.handler.reservation = handler.reservation

/-- There is no reservation, or no request for a circuit times out and no request of another listener fails. -/
def Spared : Prop :=
  handler.reservation = .none ∨
    (∀ index, answers.connect = some (index, .timedOut) → handler.inflightOutboundConnectRequests.length ≤ index) ∧
    ∀ index outcome, answers.reserve = some (index, outcome) → outcome.isGranted = false →
      ∀ toListener, handler.inflightReserveRequests[index]? = some toListener → toListener = current

theorem isolated_iff : handler.Isolated current answers ↔ handler.Spared current answers := by
  rw [Spared, or_and_left]
  refine and_congr ?_ ?_
  · rcases answers.connect with - | ⟨index, outcome⟩
    · simp [pollConnect]
    cases hr : handler.inflightOutboundConnectRequests[index]? with
    | none =>
      have hlen := List.getElem?_eq_none_iff.1 hr
      simp +contextual [pollConnect, hlen]
    | some =>
      have hlen := (List.getElem?_eq_some_iff.1 hr).1
      cases outcome with
      | established limit dialerGone => cases dialerGone <;> simp [pollConnect, hr, Turn.handler]
      | failed => simp [pollConnect, hr, Turn.handler]
      | timedOut => simp [pollConnect, Turn.handler, eq_comm, hlen]
  · rcases answers.reserve with - | ⟨index, outcome⟩
    · simp
    cases hr : handler.inflightReserveRequests[index]? with
    | none => simp [pollReserve, hr]
    | some toListener =>
      cases outcome with
      | granted => simp [ReserveOutcome.isGranted]
      | failed | timedOut =>
        by_cases hc : toListener = current <;>
          simp [pollReserve, hr, Turn.handler, ReserveOutcome.isGranted, hc, eq_comm (a := Reservation.none)]

/-- The listener whose request for a reservation is granted in a turn. -/
def grantedTo : Option ListenerId :=
  match answers.reserve with
  | some (index, .granted _ _) => handler.inflightReserveRequests[index]?
  | _ => none

end Isolated

/-- What a handler is given: a command, an inbound stream, or the next turn of a poll. -/
inductive Input (Peer : Type) where
  | command (command : HandlerIn Peer)
  | inboundStream
  | turn (answers : TurnAnswers Peer)

/-- A handler, and the listener to which a reservation was granted last. -/
structure Serving (Peer : Type) where
  handler : Handler Peer
  current : ListenerId

def Serving.step (serving : Serving Peer) : Input Peer → Option (Turn Peer) × Serving Peer
  | .command command => (none, { serving with handler := serving.handler.onBehaviourEvent command })
  | .inboundStream => (none, { serving with handler := serving.handler.onFullyNegotiatedInbound })
  | .turn answers =>
    let turn := serving.handler.turn answers
    (some turn, ⟨turn.handler, (serving.handler.grantedTo answers).getD serving.current⟩)

/-- In a run the reservation outlives the end of every request for a circuit, and every request for a reservation
that fails, unless it is one of the listener that has it, if and only if every turn spares it. -/
theorem run_isolated_iff (start : Serving Peer) (inputs : List (Input Peer)) :
    AlongTotal Serving.step (fun serving input => ∀ answers, input = .turn answers →
        serving.handler.Isolated serving.current answers) start inputs ↔
      AlongTotal Serving.step (fun serving input => ∀ answers, input = .turn answers →
        serving.handler.Spared serving.current answers) start inputs :=
  alongTotal_congr fun _ _ => forall₂_congr fun answers _ => isolated_iff _ _ answers

/-- A request for a circuit times out, and a request of another listener fails. -/
theorem reservation_lost :
    let reserved := (((new 0 1 []).makeNewReservation 7).poll
      [{ (TurnAnswers.idle : TurnAnswers Nat) with reserve := some (0, .granted [] none) }]).2
    reserved.reservation = .accepted [.reservation []] 7 ∧
      ((reserved.establishNewCircuit 3 2).poll
        [{ TurnAnswers.idle with connect := some (0, .timedOut) }]).2.reservation = .none ∧
      ((reserved.makeNewReservation 8).poll
        [{ TurnAnswers.idle with reserve := some (0, .failed) }]).2.reservation = .none :=
  ⟨rfl, rfl, rfl⟩

/-! ### What waits for the listener -/

variable {handler after : Handler Peer} {answers : TurnAnswers Peer}

theorem reservation_of_pending (ht : handler.turn answers = .pending after) :
    after.reservation = handler.reservation.forwardMessages answers.toListener := by
  have hr : handler.pollReserve answers.reserve ≠ some (.pending after) := by
    unfold pollReserve
    grind
  have hc : handler.pollConnect answers.connect ≠ some (.pending after) := by
    unfold pollConnect
    grind
  have hi : handler.pollInbound answers.inbound ≠ some (.pending after) := by
    unfold pollInbound
    grind
  have hl : handler.pollReservation answers = .pending after := by
    unfold turn at ht
    grind
  unfold pollReservation Reservation.poll at hl
  grind

/-- When a turn ends a poll, what waits for the listener waits for its channel or for a renewal, unless two messages
waited: a turn sends one, and nothing wakes the task for the other. -/
theorem pending_delivers_iff (hturn : handler.turn answers = .pending after) :
    (after.reservation.pendingMsgs ≠ [] → answers.toListener = .pending ∨ after.reservation.isAccepted = false) ↔
      ¬ (answers.toListener = .sent ∧
        ∃ first second rest toListener, handler.reservation = .accepted (first :: second :: rest) toListener) := by
  rw [reservation_of_pending hturn]
  rcases handler.reservation with ⟨- | ⟨_, - | ⟨_, _⟩⟩, toListener⟩ | _ | -
  all_goals
    cases answers.toListener <;> simp [Reservation.forwardMessages, Reservation.pendingMsgs, Reservation.isAccepted]

/-- In a run every turn that ends a poll leaves no message that only waits to be sent, if and only if none of them
sends a message while another one waits. -/
theorem run_pending_delivers_iff (start : Serving Peer) (inputs : List (Input Peer)) :
    AlongTotal Serving.step (fun serving input => ∀ answers after, input = .turn answers →
        serving.handler.turn answers = .pending after → after.reservation.pendingMsgs ≠ [] →
        answers.toListener = .pending ∨ after.reservation.isAccepted = false) start inputs ↔
      AlongTotal Serving.step (fun serving input => ∀ answers after, input = .turn answers →
        serving.handler.turn answers = .pending after → ¬ (answers.toListener = .sent ∧
          ∃ first second rest toListener,
            serving.handler.reservation = .accepted (first :: second :: rest) toListener)) start inputs :=
  alongTotal_congr fun _ _ => forall₄_congr fun _ _ _ hturn => pending_delivers_iff hturn

/-- The reservation is granted and a circuit comes before the listener is served: the circuit stays queued. -/
theorem circuit_left_queued :
    let reserved := ((new 0 1 []).makeNewReservation 7).onFullyNegotiatedInbound.poll
      [{ (TurnAnswers.idle : TurnAnswers Nat) with reserve := some (0, .granted [] none) }]
    let circuit := (reserved.2.poll [.idle]).2.poll [{ TurnAnswers.idle with inbound := some (.circuit 2 none) }]
    ∃ after, circuit.2.turn { TurnAnswers.idle with toListener := .sent } = .pending after ∧
      after.reservation = .accepted [.incomingRelayedConnection 2 1 []] 7 :=
  ⟨_, rfl, rfl⟩

end Handler

/-! The behaviour of a relay client. It passes the requests of the transport on to the handler of a
connection to the relay, which it dials if there is none. It keeps which address is reserved on which
connection, and it tells the swarm which of them are external addresses. -/

inductive ReservationStatus where
  | pending
  | confirmed
  deriving DecidableEq

inductive Event (Peer : Type) where
  | reservationReqAccepted (relay : Peer) (renewal : Bool) (limit : Option Limit)
  | outboundCircuitEstablished (relay : Peer) (limit : Option Limit)
  | inboundCircuitEstablished (src : Peer) (limit : Option Limit)

inductive Action (Peer : Type) where
  | generateEvent (event : Event Peer)
  | externalAddrConfirmed (addr : Multiaddr Peer)
  | externalAddrExpired (addr : Multiaddr Peer)
  | notifyHandler (peer : Peer) (connection : ConnectionId) (command : HandlerIn Peer)
  | dial (connection : ConnectionId) (peer : Peer) (addresses : List (Multiaddr Peer))

inductive TransportToBehaviourMsg (Peer : Type) where
  | listenReq (listener : ListenerId) (relay : Peer) (relayAddr : Multiaddr Peer)
  | dialReq (request : RequestId) (relayAddr : Multiaddr Peer) (relay : Peer) (dst : Peer)

/-- The branches that must not be reached. -/
inductive Panic where
  | unknownConnection
  | unconnectedPeer
  | noRelayConnection
  /-- A command for a connection whose handler does nothing. -/
  | mismatchedHandler
  deriving DecidableEq

variable [LinearOrder Peer]

structure Behaviour (Peer : Type) [LinearOrder Peer] where
  localPeerId : Peer
  fromTransport : List (TransportToBehaviourMsg Peer)
  directlyConnectedPeers : OrdMap Peer (List ConnectionId)
  reservationAddresses : OrdMap ConnectionId (Multiaddr Peer × ReservationStatus)
  listenerIdToConnectionId : OrdMap ListenerId ConnectionId
  queuedActions : List (Action Peer)
  pendingHandlerCommands : OrdMap ConnectionId (HandlerIn Peer)

namespace Behaviour

def new (localPeerId : Peer) : Behaviour Peer := ⟨localPeerId, [], .empty, .empty, .empty, [], .empty⟩

section

variable (behaviour : Behaviour Peer)

def pushAction (action : Action Peer) : Behaviour Peer :=
  { behaviour with queuedActions := behaviour.queuedActions ++ [action] }

/-- The reservation of a connection is gone; a confirmed address expires. -/
def dropReservation (connection : ConnectionId) : Behaviour Peer :=
  let dropped := { behaviour with reservationAddresses := behaviour.reservationAddresses.erase connection }
  match behaviour.reservationAddresses.get? connection with
  | some (addr, .confirmed) => dropped.pushAction (.externalAddrExpired addr)
  | _ => dropped

/-- Forget a direct connection, the peer with its last one, and whose listeners' reservations were on it. -/
def forgetConnection (peer : Peer) (connection : ConnectionId) (connections : List ConnectionId) : Behaviour Peer :=
  let rest := connections.erase connection
  { behaviour with
    directlyConnectedPeers :=
      if rest = [] then behaviour.directlyConnectedPeers.erase peer
      else behaviour.directlyConnectedPeers.insert peer rest
    listenerIdToConnectionId := behaviour.listenerIdToConnectionId.retain fun _ other => other ≠ connection }

def onConnectionClosed (peer : Peer) (connection : ConnectionId)
    (endpoint : ConnectedPoint Peer) : Except Panic (Behaviour Peer) :=
  if endpoint.isRelayed then .ok behaviour
  else
    match behaviour.directlyConnectedPeers.get? peer with
    | none => .error .unconnectedPeer
    | some connections =>
      if connection ∈ connections then
        .ok ((behaviour.forgetConnection peer connection connections).dropReservation connection)
      else .error .unknownConnection

/-- The address of a connection expires with the last of its listeners. -/
def onListenerClosed (listener : ListenerId) : Behaviour Peer :=
  match behaviour.listenerIdToConnectionId.get? listener with
  | none => behaviour
  | some connection =>
    let closed := { behaviour with listenerIdToConnectionId := behaviour.listenerIdToConnectionId.erase listener }
    if closed.listenerIdToConnectionId.entries.any fun entry => entry.2 = connection then closed
    else closed.dropReservation connection

def onConnectionEstablished (peer : Peer) (connection : ConnectionId)
    (endpoint : ConnectedPoint Peer) : Behaviour Peer :=
  if endpoint.isRelayed then behaviour
  else
    { behaviour with
      directlyConnectedPeers := behaviour.directlyConnectedPeers.insert peer
        ((behaviour.directlyConnectedPeers.get? peer).getD [] ++ [connection]) }

/-- The handler for a new connection, with the command that waits for it. A relayed connection has a handler that does
nothing. -/
def handleEstablishedConnection (connection : ConnectionId) (peer : Peer)
    (endpoint : ConnectedPoint Peer) : Option (Handler Peer) × Behaviour Peer :=
  let taken := { behaviour with pendingHandlerCommands := behaviour.pendingHandlerCommands.erase connection }
  if endpoint.isRelayed then (none, taken)
  else
    let handler := Handler.new behaviour.localPeerId peer endpoint.getRemoteAddress
    match behaviour.pendingHandlerCommands.get? connection with
    | some command => (some (handler.onBehaviourEvent command), taken)
    | none => (some handler, taken)

def onDialFailure (connection : ConnectionId) : Behaviour Peer :=
  { behaviour with
    reservationAddresses := behaviour.reservationAddresses.erase connection
    pendingHandlerCommands := behaviour.pendingHandlerCommands.erase connection }

def onReservationReqAccepted (source : Peer) (connection : ConnectionId) (renewal : Bool)
    (limit : Option Limit) : Except Panic (Behaviour Peer) :=
  match behaviour.reservationAddresses.get? connection with
  | none => .error .noRelayConnection
  | some (addr, status) =>
    let noted :=
      if !renewal && status = .pending then
        { behaviour with
          reservationAddresses := behaviour.reservationAddresses.insert connection (addr, .confirmed) }.pushAction
            (.externalAddrConfirmed addr)
      else behaviour
    .ok (noted.pushAction (.generateEvent (.reservationReqAccepted source renewal limit)))

def onConnectionHandlerEvent (source : Peer) (connection : ConnectionId) :
    HandlerEvent Peer → Except Panic (Behaviour Peer)
  | .reservationReqAccepted renewal limit => behaviour.onReservationReqAccepted source connection renewal limit
  | .outboundCircuitEstablished limit =>
    .ok (behaviour.pushAction (.generateEvent (.outboundCircuitEstablished source limit)))
  | .inboundCircuitEstablished src limit =>
    .ok (behaviour.pushAction (.generateEvent (.inboundCircuitEstablished src limit)))

def relayConnection? (relay : Peer) : Option ConnectionId :=
  (behaviour.directlyConnectedPeers.get? relay).bind List.head?

/-- The address that others reach the client at through a relay. -/
def circuitAddr (relay : Peer) (relayAddr : Multiaddr Peer) : Multiaddr Peer :=
  relayAddr ++ [.p2p relay, .p2pCircuit, .p2p behaviour.localPeerId]

/-- Note which connection the reservation of a listener is to be made on. -/
def assign (listener : ListenerId) (connection : ConnectionId) (addr : Multiaddr Peer) : Behaviour Peer :=
  { behaviour with
    listenerIdToConnectionId := behaviour.listenerIdToConnectionId.insert listener connection
    reservationAddresses := behaviour.reservationAddresses.insert connection (addr, .pending) }

/-- A request of the transport. If there is no connection to the relay, it is dialed under a fresh number. -/
def onTransportMsg (fresh : ConnectionId) : TransportToBehaviourMsg Peer → Action Peer × Behaviour Peer
  | .listenReq listener relay relayAddr =>
    let addr := behaviour.circuitAddr relay relayAddr
    match behaviour.relayConnection? relay with
    | some connection =>
      (.notifyHandler relay connection (.reserve listener), behaviour.assign listener connection addr)
    | none =>
      let assigned := behaviour.assign listener fresh addr
      (.dial fresh relay [relayAddr],
        { assigned with pendingHandlerCommands := assigned.pendingHandlerCommands.insert fresh (.reserve listener) })
  | .dialReq request relayAddr relay dst =>
    match behaviour.relayConnection? relay with
    | some connection => (.notifyHandler relay connection (.establishCircuit dst request), behaviour)
    | none =>
      (.dial fresh relay [relayAddr], { behaviour with
          pendingHandlerCommands := behaviour.pendingHandlerCommands.insert fresh (.establishCircuit dst request) })

def poll (fresh : ConnectionId) : Option (Action Peer × Behaviour Peer) :=
  match behaviour.queuedActions with
  | action :: actions => some (action, { behaviour with queuedActions := actions })
  | [] =>
    match behaviour.fromTransport with
    | [] => none
    | msg :: msgs => some ({ behaviour with fromTransport := msgs }.onTransportMsg fresh msg)

end

variable {behaviour : Behaviour Peer} {connection : ConnectionId}

theorem poll_of_msg {msg : TransportToBehaviourMsg Peer} {msgs : List (TransportToBehaviourMsg Peer)}
    (ha : behaviour.queuedActions = []) (hm : behaviour.fromTransport = msg :: msgs) (fresh : ConnectionId) :
    behaviour.poll fresh = some ({ behaviour with fromTransport := msgs }.onTransportMsg fresh msg) := by
  unfold poll
  split
  · next heq => cases ha.symm.trans heq
  split
  · next heq => cases hm.symm.trans heq
  · next heq =>
    cases hm.symm.trans heq
    rfl

theorem dropReservation_eq (behaviour : Behaviour Peer) (connection : ConnectionId) :
    ∃ acts, behaviour.dropReservation connection = { behaviour with
        reservationAddresses := behaviour.reservationAddresses.erase connection
        queuedActions := behaviour.queuedActions ++ acts } ∧
      ((∃ addr, behaviour.reservationAddresses.get? connection = some (addr, .confirmed) ∧
          acts = [.externalAddrExpired addr]) ∨
        (∀ addr, behaviour.reservationAddresses.get? connection ≠ some (addr, .confirmed)) ∧ acts = []) := by
  unfold dropReservation
  split
  · next addr ha => exact ⟨_, rfl, .inl ⟨addr, ha, rfl⟩⟩
  · next hnot => exact ⟨[], by rw [List.append_nil], .inr ⟨hnot, rfl⟩⟩

/-- A closed listener takes the reservation of its connection with it if it was the last one there. -/
theorem onListenerClosed_cases (behaviour : Behaviour Peer) (listener : ListenerId) :
    (behaviour.listenerIdToConnectionId.get? listener = none ∧ behaviour.onListenerClosed listener = behaviour) ∨
    ∃ connection, behaviour.listenerIdToConnectionId.get? listener = some connection ∧
      (((behaviour.listenerIdToConnectionId.erase listener).entries.any (fun e => e.2 = connection) ∧
          behaviour.onListenerClosed listener = { behaviour with
              listenerIdToConnectionId := behaviour.listenerIdToConnectionId.erase listener }) ∨
        ((behaviour.listenerIdToConnectionId.erase listener).entries.any (fun e => e.2 = connection) = false ∧
          behaviour.onListenerClosed listener = { behaviour with
              listenerIdToConnectionId := behaviour.listenerIdToConnectionId.erase listener }.dropReservation
                connection)) := by
  unfold onListenerClosed
  split
  · next hn => exact .inl ⟨hn, rfl⟩
  · next connection hc =>
    refine .inr ⟨connection, hc, ?_⟩
    dsimp only
    split_ifs with ho
    · exact .inl ⟨ho, rfl⟩
    · exact .inr ⟨Bool.eq_false_iff.2 ho, rfl⟩

variable {after : Behaviour Peer} {peer : Peer} {event : HandlerEvent Peer}

theorem onConnectionClosed_cases
    {ep : ConnectedPoint Peer} (hok : behaviour.onConnectionClosed peer connection ep = .ok after) :
    (ep.isRelayed ∧ after = behaviour) ∨
    ∃ conns, ep.isRelayed = false ∧ behaviour.directlyConnectedPeers.get? peer = some conns ∧
      after = (behaviour.forgetConnection peer connection conns).dropReservation connection := by
  unfold onConnectionClosed at hok
  split_ifs at hok with hr
  · cases hok
    exact .inl ⟨hr, rfl⟩
  split at hok
  · cases hok
  · next conns hp =>
    split_ifs at hok
    cases hok
    exact .inr ⟨conns, Bool.eq_false_iff.2 hr, hp, rfl⟩

theorem onConnectionHandlerEvent_cases {source : Peer}
    (hok : behaviour.onConnectionHandlerEvent source connection event = .ok after) :
    ∃ report, after = behaviour.pushAction (.generateEvent report) ∨
      ∃ addr, behaviour.reservationAddresses.get? connection = some (addr, .pending) ∧
        after = ({ behaviour with
          reservationAddresses := behaviour.reservationAddresses.insert connection (addr, .confirmed) }.pushAction
            (.externalAddrConfirmed addr)).pushAction (.generateEvent report) := by
  cases event with
  | reservationReqAccepted =>
    unfold onConnectionHandlerEvent onReservationReqAccepted at hok
    dsimp only at hok
    split at hok
    · cases hok
    · next addr stat ha =>
      split_ifs at hok with hn
      · cases hok
        rw [Bool.and_eq_true, decide_eq_true_eq] at hn
        exact ⟨_, .inr ⟨addr, hn.2 ▸ ha, rfl⟩⟩
      · cases hok
        exact ⟨_, .inl rfl⟩
  | outboundCircuitEstablished limit | inboundCircuitEstablished src limit =>
    cases hok
    exact ⟨_, .inl rfl⟩

theorem exists_onConnectionHandlerEvent
    (he : event.isAccepted → (behaviour.reservationAddresses.get? connection).isSome)
    (source : Peer) : ∃ after, behaviour.onConnectionHandlerEvent source connection event = .ok after := by
  cases event with
  | reservationReqAccepted =>
    obtain ⟨⟨_, _⟩, ha⟩ := Option.isSome_iff_exists.1 (he rfl)
    unfold onConnectionHandlerEvent onReservationReqAccepted
    rw [ha]
    exact ⟨_, rfl⟩
  | outboundCircuitEstablished limit | inboundCircuitEstablished src limit => exact ⟨_, rfl⟩

def connectionsOf (behaviour : Behaviour Peer) (peer : Peer) : List ConnectionId :=
  (behaviour.directlyConnectedPeers.get? peer).getD []

theorem mem_of_relayConnection? {relay : Peer}
    (hr : behaviour.relayConnection? relay = some connection) : connection ∈ behaviour.connectionsOf relay := by
  unfold relayConnection? at hr
  unfold connectionsOf
  cases hp : behaviour.directlyConnectedPeers.get? relay with
  | none =>
    rw [hp] at hr
    cases hr
  | some =>
    rw [hp] at hr
    exact List.mem_of_mem_head? hr

theorem connectionsOf_onConnectionEstablished (behaviour : Behaviour Peer) (peer : Peer) (connection : ConnectionId)
    (ep : ConnectedPoint Peer) (other : Peer) :
    (behaviour.onConnectionEstablished peer connection ep).connectionsOf other =
      if ep.isRelayed = false ∧ other = peer then behaviour.connectionsOf other ++ [connection]
      else behaviour.connectionsOf other := by
  unfold onConnectionEstablished connectionsOf
  cases ep.isRelayed with
  | true => rw [if_pos rfl, if_neg fun h => nomatch h.1]
  | false =>
    rw [if_neg Bool.false_ne_true]
    rw [OrdMap.get?_insert]
    by_cases ho : other = peer
    · rw [if_pos ho, if_pos ⟨rfl, ho⟩, ho]
      rfl
    · rw [if_neg ho, if_neg fun h => ho h.2]

theorem connectionsOf_forgetConnection {conns : List ConnectionId}
    (hp : behaviour.directlyConnectedPeers.get? peer = some conns) (connection : ConnectionId) (other : Peer) :
    (behaviour.forgetConnection peer connection conns).connectionsOf other =
      if other = peer then (behaviour.connectionsOf other).erase connection else behaviour.connectionsOf other := by
  unfold forgetConnection connectionsOf
  dsimp only
  by_cases ho : other = peer
  · rw [if_pos ho, ho, hp, Option.getD_some]
    split_ifs with he
    · rw [OrdMap.get?_erase, if_pos rfl, he]
      rfl
    · rw [OrdMap.get?_insert, if_pos rfl]
      rfl
  · rw [if_neg ho]
    split_ifs
    · rw [OrdMap.get?_erase, if_neg ho]
    · rw [OrdMap.get?_insert, if_neg ho]

end Behaviour
end RustLibp2p.Relay.Client
