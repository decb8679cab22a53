import RustLibp2p.RelayBehaviour
import RustLibp2p.Transition

/-! The handler of one connection of a relay server. Reading requests, writing answers and copying data
are tasks that are done in the background; a poll of the handler asks them in a fixed order and returns
the first event. -/

namespace RustLibp2p.Relay

variable {Peer : Type}

def maxConcurrentStreamsPerConnection : Nat := 10

/-- What is known of a circuit while the remote is asked to take it. -/
structure PendingConnect (Peer : Type) where
  circuitId : CircuitId
  inboundCircuitReq : CircuitReq Peer
  srcPeerId : Peer
  srcConnectionId : ConnectionId

/-- The answer to a reservation request that is being written. -/
inductive ReservationRequestFuture where
  | accepting
  | denying (status : Status)
  deriving DecidableEq

/-- What a poll of a handler returns: a new outbound stream is wanted, or an event for the behaviour. -/
inductive HandlerOut (Peer : Type) where
  | outboundSubstreamRequest
  | notifyBehaviour (event : HandlerEvent Peer)

inductive StreamUpgradeError where
  | timeout
  | negotiationFailed
  | io (error : IoError)

def StreamUpgradeError.toStopError : StreamUpgradeError → StopError
  | timeout => .io .timedOut
  | negotiationFailed => .unsupported
  | io error => .io error

structure Handler (Peer : Type) where
  endpoint : ConnectedPoint Peer
  queuedEvents : List (HandlerOut Peer)
  reservationRequestFuture : Option ReservationRequestFuture
  /-- Whether the timer of a reservation runs. -/
  activeReservation : Bool
  circuitAcceptFutures : List (CircuitId × Peer)
  circuitDenyFutures : List (Option CircuitId × Peer × Status)
  circuits : List (CircuitId × Peer)
  pendingConnectRequests : List (PendingConnect Peer)
  activeConnectRequests : OrdMap CircuitId (PendingConnect Peer)
  /-- How many inbound streams wait for a request. -/
  inboundWorkers : Nat
  /-- The circuits that the remote is being asked for. -/
  outboundWorkers : List CircuitId

/-- What a read of a request from an inbound stream gives. -/
inductive InboundRequest (Peer : Type) where
  | reserve
  | connect (req : CircuitReq Peer)
  /-- A request that cannot be read, or none within the time limit. -/
  | failed

/-- How asking the remote to take a circuit ends. -/
inductive StopOutcome where
  | connected
  | failed (error : StopError)
  /-- The remote did not answer within the time limit of a stream. -/
  | timedOut

/-- How the tasks of a handler answer in one poll; an index says which of several tasks is done. -/
structure TaskAnswers (Peer : Type) where
  circuit : Option (Nat × Option IoError)
  /-- The inbound streams that are done, in the order in which they are asked. -/
  inbound : List (InboundRequest Peer)
  outbound : Option (Nat × StopOutcome)
  deny : Option (Nat × Except HopError Unit)
  accept : Option (Nat × Except HopError Unit)
  timer : Bool
  reservation : Option (Except HopError Unit)

def TaskAnswers.idle : TaskAnswers Peer := ⟨none, [], none, none, none, false, none⟩

namespace Handler

def new (endpoint : ConnectedPoint Peer) : Handler Peer where
  endpoint := endpoint
  queuedEvents := []
  reservationRequestFuture := none
  activeReservation := false
  circuitAcceptFutures := []
  circuitDenyFutures := []
  circuits := []
  pendingConnectRequests := []
  activeConnectRequests := .empty
  inboundWorkers := 0
  outboundWorkers := []

/-- An inbound stream is dropped when too many wait already. -/
def onFullyNegotiatedInbound (handler : Handler Peer) : Handler Peer :=
  if handler.inboundWorkers < maxConcurrentStreamsPerConnection then
    { handler with inboundWorkers := handler.inboundWorkers + 1 }
  else handler

/-- A task under a key, unless there are too many; an older one under the same key is dropped. -/
def tryPush (workers : List CircuitId) (circuit : CircuitId) : List CircuitId :=
  if workers.length ≥ maxConcurrentStreamsPerConnection then workers
  else workers.erase circuit ++ [circuit]

def onFullyNegotiatedOutbound (handler : Handler Peer) : Except Panic (Handler Peer) :=
  match handler.pendingConnectRequests with
  | [] => .error .openedWithoutPendingCommand
  | connect :: rest =>
    .ok { handler with
      pendingConnectRequests := rest
      outboundWorkers := tryPush handler.outboundWorkers connect.circuitId
      activeConnectRequests := handler.activeConnectRequests.insert connect.circuitId connect }

def pushEvent (handler : Handler Peer) (event : HandlerOut Peer) : Handler Peer :=
  { handler with queuedEvents := handler.queuedEvents ++ [event] }

def negotiationFailed (connect : PendingConnect Peer) (status : Status) (error : StopError) : HandlerEvent Peer :=
  .outboundConnectNegotiationFailed connect.circuitId connect.srcPeerId connect.srcConnectionId
    connect.inboundCircuitReq status error

def onDialUpgradeError (handler : Handler Peer) (error : StreamUpgradeError) : Except Panic (Handler Peer) :=
  match handler.pendingConnectRequests with
  | [] => .error .failedWithoutPendingCommand
  | connect :: rest =>
    let failed := { handler with pendingConnectRequests := rest }
    .ok (failed.pushEvent (.notifyBehaviour (negotiationFailed connect .connectionFailed error.toStopError)))

def onBehaviourEvent (handler : Handler Peer) : HandlerIn Peer → Handler Peer
  | .acceptReservationReq _ => { handler with reservationRequestFuture := some .accepting }
  | .denyReservationReq status => { handler with reservationRequestFuture := some (.denying status) }
  | .negotiateOutboundConnect circuit req src srcConnection =>
    let known : Handler Peer := { handler with
      pendingConnectRequests := handler.pendingConnectRequests ++ [⟨circuit, req, src, srcConnection⟩] }
    known.pushEvent .outboundSubstreamRequest
  | .denyCircuitReq circuit req status =>
    { handler with circuitDenyFutures := handler.circuitDenyFutures ++ [(circuit, req.dst, status)] }
  | .acceptAndDriveCircuit circuit dst _ =>
    { handler with circuitAcceptFutures := handler.circuitAcceptFutures ++ [(circuit, dst)] }

/-- The outcome of one part of a poll: an event, or nothing to report yet. -/
abbrev Polled (Peer : Type) := Option (HandlerOut Peer) × Handler Peer

def pollQueued (handler : Handler Peer) : Polled Peer :=
  match handler.queuedEvents with
  | [] => (none, handler)
  | event :: rest => (some event, { handler with queuedEvents := rest })

def pollCircuits (handler : Handler Peer) (answer : Option (Nat × Option IoError)) : Polled Peer :=
  match answer with
  | none => (none, handler)
  | some (index, error) =>
    match handler.circuits[index]? with
    | none => (none, handler)
    | some (circuit, dst) =>
      (some (.notifyBehaviour (.circuitClosed circuit dst error)),
        { handler with circuits := handler.circuits.eraseIdx index })

/-- A stream on which no request comes is dropped, and the next one is asked. -/
def pollInbound (handler : Handler Peer) : List (InboundRequest Peer) → Polled Peer
  | [] => (none, handler)
  | request :: requests =>
    match handler.inboundWorkers with
    | 0 => (none, handler)
    | workers + 1 =>
      let handler := { handler with inboundWorkers := workers }
      match request with
      | .reserve =>
        (some (.notifyBehaviour (.reservationReqReceived handler.endpoint handler.activeReservation)), handler)
      | .connect req => (some (.notifyBehaviour (.circuitReqReceived req handler.endpoint)), handler)
      | .failed => pollInbound handler requests

section

variable (handler : Handler Peer)

def pollOutbound (answer : Option (Nat × StopOutcome)) : Except Panic (Polled Peer) :=
  match answer with
  | none => .ok (none, handler)
  | some (index, result) =>
    match handler.outboundWorkers[index]? with
    | none => .ok (none, handler)
    | some circuit =>
      match handler.activeConnectRequests.get? circuit with
      | none => .error .noPendingConnect
      | some connect =>
        let handler := { handler with
          outboundWorkers := handler.outboundWorkers.eraseIdx index
          activeConnectRequests := handler.activeConnectRequests.erase circuit }
        match result with
        | .connected =>
          .ok (some (.notifyBehaviour (.outboundConnectNegotiated circuit connect.srcPeerId
            connect.srcConnectionId connect.inboundCircuitReq)), handler)
        | .failed error => .ok (some (.notifyBehaviour (negotiationFailed connect error.toStatus error)), handler)
        | .timedOut =>
          .ok (some (.notifyBehaviour (negotiationFailed connect .connectionFailed (.io .timedOut))), handler)

def pollDeny (answer : Option (Nat × Except HopError Unit)) : Polled Peer :=
  match answer with
  | none => (none, handler)
  | some (index, result) =>
    match handler.circuitDenyFutures[index]? with
    | none => (none, handler)
    | some (circuit, dst, status) =>
      let handler := { handler with circuitDenyFutures := handler.circuitDenyFutures.eraseIdx index }
      match result with
      | .ok () => (some (.notifyBehaviour (.circuitReqDenied circuit dst status)), handler)
      | .error error => (some (.notifyBehaviour (.circuitReqDenyFailed circuit dst error)), handler)

/-- A circuit whose acceptance is written is copied from then on. -/
def pollAccept (answer : Option (Nat × Except HopError Unit)) : Polled Peer :=
  match answer with
  | none => (none, handler)
  | some (index, result) =>
    match handler.circuitAcceptFutures[index]? with
    | none => (none, handler)
    | some (circuit, dst) =>
      let handler := { handler with circuitAcceptFutures := handler.circuitAcceptFutures.eraseIdx index }
      match result with
      | .ok () =>
        (some (.notifyBehaviour (.circuitReqAccepted circuit dst)),
          { handler with circuits := handler.circuits ++ [(circuit, dst)] })
      | .error error => (some (.notifyBehaviour (.circuitReqAcceptFailed circuit dst error)), handler)

/-- The part of a poll in front of the reservation. -/
def pollStreams (answers : TaskAnswers Peer) : Except Panic (Polled Peer) :=
  match handler.pollQueued with
  | (some event, handler) => .ok (some event, handler)
  | (none, handler) =>
    match handler.pollCircuits answers.circuit with
    | (some event, handler) => .ok (some event, handler)
    | (none, handler) =>
      match handler.pollInbound answers.inbound with
      | (some event, handler) => .ok (some event, handler)
      | (none, handler) =>
        match handler.pollOutbound answers.outbound with
        | .error panic => .error panic
        | .ok (some event, handler) => .ok (some event, handler)
        | .ok (none, handler) =>
          match handler.pollDeny answers.deny with
          | (some event, handler) => .ok (some event, handler)
          | (none, handler) => .ok (handler.pollAccept answers.accept)

/-- The answer to a reservation request is written, or writing it has failed. -/
def pollReservationRequest (answer : Option (Except HopError Unit)) : Polled Peer :=
  match handler.reservationRequestFuture, answer with
  | some .accepting, some (.ok ()) =>
    (some (.notifyBehaviour (.reservationReqAccepted handler.activeReservation)),
      { handler with reservationRequestFuture := none, activeReservation := true })
  | some .accepting, some (.error error) =>
    (some (.notifyBehaviour (.reservationReqAcceptFailed error)), { handler with reservationRequestFuture := none })
  | some (.denying status), some (.ok ()) =>
    (some (.notifyBehaviour (.reservationReqDenied status)), { handler with reservationRequestFuture := none })
  | some (.denying _), some (.error error) =>
    (some (.notifyBehaviour (.reservationReqDenyFailed error)), { handler with reservationRequestFuture := none })
  | _, _ => (none, handler)

def pollReservation (answers : TaskAnswers Peer) : Polled Peer :=
  if handler.activeReservation && answers.timer then
    (some (.notifyBehaviour .reservationTimedOut), { handler with activeReservation := false })
  else handler.pollReservationRequest answers.reservation

def poll (answers : TaskAnswers Peer) : Except Panic (Polled Peer) :=
  match handler.pollStreams answers with
  | .error panic => .error panic
  | .ok (some event, handler) => .ok (some event, handler)
  | .ok (none, handler) => .ok (handler.pollReservation answers)

end

/-! ### What a poll can do -/

/-- The timer of the reservation is asked in this poll, and it has run out. -/
def timerFires (handler : Handler Peer) (answers : TaskAnswers Peer) : Bool :=
  match handler.pollStreams answers with
  | .ok (none, _) => handler.activeReservation && answers.timer
  | _ => false

/-- The outcome of a poll of a handler, after inbound streams without a request were dropped. -/
inductive PollStep (fires : Prop) (handler : Handler Peer) : Option (HandlerOut Peer) → Handler Peer → Prop where
  | idle : PollStep fires handler none handler
  | queued {event : HandlerOut Peer} {rest : List (HandlerOut Peer)} (hqueued : handler.queuedEvents = event :: rest) :
      PollStep fires handler (some event) { handler with queuedEvents := rest }
  | circuitClosed {index : Nat} {circuit : CircuitId} {dst : Peer} (error : Option IoError)
      (hcircuit : handler.circuits[index]? = some (circuit, dst)) :
      PollStep fires handler (some (.notifyBehaviour (.circuitClosed circuit dst error)))
        { handler with circuits := handler.circuits.eraseIdx index }
  | reserve : PollStep fires handler
      (some (.notifyBehaviour (.reservationReqReceived handler.endpoint handler.activeReservation))) handler
  | connect (req : CircuitReq Peer) :
      PollStep fires handler (some (.notifyBehaviour (.circuitReqReceived req handler.endpoint))) handler
  | negotiated {index : Nat} {circuit : CircuitId} {connect : PendingConnect Peer}
      (hworker : handler.outboundWorkers[index]? = some circuit)
      (hconnect : handler.activeConnectRequests.get? circuit = some connect) :
      PollStep fires handler
        (some (.notifyBehaviour (.outboundConnectNegotiated circuit connect.srcPeerId connect.srcConnectionId
          connect.inboundCircuitReq)))
        { handler with
          outboundWorkers := handler.outboundWorkers.eraseIdx index
          activeConnectRequests := handler.activeConnectRequests.erase circuit }
  | negotiationFailed {index : Nat} {circuit : CircuitId} {connect : PendingConnect Peer} (status : Status)
      (error : StopError) (hworker : handler.outboundWorkers[index]? = some circuit)
      (hconnect : handler.activeConnectRequests.get? circuit = some connect) :
      PollStep fires handler (some (.notifyBehaviour (Handler.negotiationFailed connect status error))) { handler with
          outboundWorkers := handler.outboundWorkers.eraseIdx index
          activeConnectRequests := handler.activeConnectRequests.erase circuit }
  | denied {index : Nat} {circuit : Option CircuitId} {dst : Peer} {status : Status}
      (hdeny : handler.circuitDenyFutures[index]? = some (circuit, dst, status)) :
      PollStep fires handler (some (.notifyBehaviour (.circuitReqDenied circuit dst status)))
        { handler with circuitDenyFutures := handler.circuitDenyFutures.eraseIdx index }
  | denyFailed {index : Nat} {circuit : Option CircuitId} {dst : Peer} {status : Status} (error : HopError)
      (hdeny : handler.circuitDenyFutures[index]? = some (circuit, dst, status)) :
      PollStep fires handler (some (.notifyBehaviour (.circuitReqDenyFailed circuit dst error)))
        { handler with circuitDenyFutures := handler.circuitDenyFutures.eraseIdx index }
  | accepted {index : Nat} {circuit : CircuitId} {dst : Peer}
      (haccept : handler.circuitAcceptFutures[index]? = some (circuit, dst)) :
      PollStep fires handler (some (.notifyBehaviour (.circuitReqAccepted circuit dst))) { handler with
          circuitAcceptFutures := handler.circuitAcceptFutures.eraseIdx index
          circuits := handler.circuits ++ [(circuit, dst)] }
  | acceptFailed {index : Nat} {circuit : CircuitId} {dst : Peer} (error : HopError)
      (haccept : handler.circuitAcceptFutures[index]? = some (circuit, dst)) :
      PollStep fires handler (some (.notifyBehaviour (.circuitReqAcceptFailed circuit dst error)))
        { handler with circuitAcceptFutures := handler.circuitAcceptFutures.eraseIdx index }
  | timedOut (hfires : fires) (hactive : handler.activeReservation) :
      PollStep fires handler (some (.notifyBehaviour .reservationTimedOut)) { handler with activeReservation := false }
  | reservationAccepted (hfuture : handler.reservationRequestFuture = some .accepting) :
      PollStep fires handler (some (.notifyBehaviour (.reservationReqAccepted handler.activeReservation)))
        { handler with reservationRequestFuture := none, activeReservation := true }
  | reservationAcceptFailed (error : HopError) :
      PollStep fires handler (some (.notifyBehaviour (.reservationReqAcceptFailed error)))
        { handler with reservationRequestFuture := none }
  | reservationDenied (status : Status) :
      PollStep fires handler (some (.notifyBehaviour (.reservationReqDenied status)))
        { handler with reservationRequestFuture := none }
  | reservationDenyFailed (error : HopError) :
      PollStep fires handler (some (.notifyBehaviour (.reservationReqDenyFailed error)))
        { handler with reservationRequestFuture := none }

variable {handler after : Handler Peer} {event : Option (HandlerOut Peer)} {answers : TaskAnswers Peer}

theorem PollStep.eq_of_none {fires : Prop} (hs : PollStep fires handler none after) : after = handler := by
  cases hs
  rfl

section PollStep

variable (fires : Prop)

theorem pollQueued_cases (hp : handler.pollQueued = (event, after)) : PollStep fires handler event after := by
  unfold pollQueued at hp
  split at hp
  · cases hp
    exact .idle
  · next hq =>
    cases hp
    exact .queued hq

theorem pollCircuits_cases {answer : Option (Nat × Option IoError)}
    (hp : handler.pollCircuits answer = (event, after)) : PollStep fires handler event after := by
  unfold pollCircuits at hp
  split at hp
  · cases hp
    exact .idle
  split at hp
  · cases hp
    exact .idle
  · next hc =>
    cases hp
    exact .circuitClosed _ hc

/-- With fewer inbound streams that wait for a request. -/
def withInbound (handler : Handler Peer) (workers : Nat) : Handler Peer := { handler with inboundWorkers := workers }

theorem pollInbound_cases {reqs : List (InboundRequest Peer)} (hp : handler.pollInbound reqs = (event, after)) :
    ∃ workers, PollStep fires (handler.withInbound workers) event after := by
  induction reqs generalizing handler with
  | nil =>
    cases hp
    exact ⟨after.inboundWorkers, .idle⟩
  | cons request reqs ih =>
    unfold pollInbound at hp
    split at hp
    · cases hp
      exact ⟨after.inboundWorkers, .idle⟩
    · next workers _ =>
      cases request with
      | reserve =>
        cases hp
        exact ⟨workers, .reserve⟩
      | connect req =>
        cases hp
        exact ⟨workers, .connect req⟩
      | failed =>
        have hr : (handler.withInbound workers).pollInbound reqs = (event, after) := hp
        obtain ⟨fewer, hs⟩ := ih hr
        exact ⟨fewer, hs⟩

theorem pollOutbound_cases {answer : Option (Nat × StopOutcome)}
    (hp : handler.pollOutbound answer = .ok (event, after)) : PollStep fires handler event after := by
  unfold pollOutbound at hp
  split at hp
  · cases hp
    exact .idle
  · next res =>
    split at hp
    · cases hp
      exact .idle
    · next hw =>
      split at hp
      · cases hp
      · next hc =>
        cases res with
        | connected =>
          cases hp
          exact .negotiated hw hc
        | failed error | timedOut =>
          cases hp
          exact .negotiationFailed _ _ hw hc

variable {answer : Option (Nat × Except HopError Unit)}

theorem pollDeny_cases (hp : handler.pollDeny answer = (event, after)) : PollStep fires handler event after := by
  unfold pollDeny at hp
  split at hp
  · cases hp
    exact .idle
  · next res =>
    split at hp
    · cases hp
      exact .idle
    · next hd =>
      cases res with
      | ok =>
        cases hp
        exact .denied hd
      | error error =>
        cases hp
        exact .denyFailed error hd

theorem pollAccept_cases (hp : handler.pollAccept answer = (event, after)) : PollStep fires handler event after := by
  unfold pollAccept at hp
  split at hp
  · cases hp
    exact .idle
  · next res =>
    split at hp
    · cases hp
      exact .idle
    · next ha =>
      cases res with
      | ok =>
        cases hp
        exact .accepted ha
      | error error =>
        cases hp
        exact .acceptFailed error ha

theorem pollStreams_cases (hp : handler.pollStreams answers = .ok (event, after)) :
    ∃ workers, PollStep fires (handler.withInbound workers) event after := by
  unfold pollStreams at hp
  split at hp
  · next hq =>
    cases hp
    exact ⟨_, pollQueued_cases fires hq⟩
  · next hq =>
    obtain rfl := (pollQueued_cases fires hq).eq_of_none
    split at hp
    · next hc =>
      cases hp
      exact ⟨_, pollCircuits_cases fires hc⟩
    · next hc =>
      obtain rfl := (pollCircuits_cases fires hc).eq_of_none
      split at hp
      · next hi =>
        cases hp
        exact pollInbound_cases fires hi
      · next hi =>
        obtain ⟨workers, hi⟩ := pollInbound_cases fires hi
        obtain rfl := hi.eq_of_none
        refine ⟨workers, ?_⟩
        split at hp
        · cases hp
        · next ho =>
          cases hp
          exact pollOutbound_cases fires ho
        · next ho =>
          obtain rfl := (pollOutbound_cases fires ho).eq_of_none
          split at hp
          · next hd =>
            cases hp
            exact pollDeny_cases fires hd
          · next hd =>
            obtain rfl := (pollDeny_cases fires hd).eq_of_none
            exact pollAccept_cases fires (Except.ok.inj hp)

theorem pollReservationRequest_cases {answer : Option (Except HopError Unit)}
    (hp : handler.pollReservationRequest answer = (event, after)) : PollStep fires handler event after := by
  unfold pollReservationRequest at hp
  split at hp
  · next hf =>
    cases hp
    exact .reservationAccepted hf
  · cases hp
    exact .reservationAcceptFailed _
  · cases hp
    exact .reservationDenied _
  · cases hp
    exact .reservationDenyFailed _
  · cases hp
    exact .idle

end PollStep

/-- Every poll that does not panic is one of the steps; the timer of the reservation fires only where it is asked. -/
theorem poll_cases {fires : Prop} (hf : handler.timerFires answers → fires)
    (hp : handler.poll answers = .ok (event, after)) :
    ∃ workers, PollStep fires (handler.withInbound workers) event after := by
  unfold poll at hp
  split at hp
  · cases hp
  · next hs =>
    cases hp
    exact pollStreams_cases fires hs
  · next hs =>
    obtain ⟨workers, hn⟩ := pollStreams_cases fires hs
    obtain rfl := hn.eq_of_none
    refine ⟨workers, ?_⟩
    have hr := Except.ok.inj hp
    unfold pollReservation at hr
    split_ifs at hr with ht
    · cases hr
      refine .timedOut (hf ?_) (Bool.and_eq_true_iff.1 ht).1
      unfold timerFires
      rw [hs]
      exact ht
    · exact pollReservationRequest_cases fires hr

theorem exists_poll (answers : TaskAnswers Peer)
    (hk : ∀ circ ∈ handler.outboundWorkers, (handler.activeConnectRequests.get? circ).isSome) :
    ∃ event after, handler.poll answers = .ok (event, after) := by
  have ho : ∀ workers, ∃ polled, (handler.withInbound workers).pollOutbound answers.outbound = .ok polled := by
    intro workers
    unfold pollOutbound
    split
    · exact ⟨_, rfl⟩
    split
    · exact ⟨_, rfl⟩
    · next hw =>
      split
      · next hn =>
        have hs := hk _ (List.mem_of_getElem? hw)
        have hu : handler.activeConnectRequests.get? _ = none := hn
        rw [hu] at hs
        cases hs
      · split <;> exact ⟨_, rfl⟩
  have hst : ∃ polled, handler.pollStreams answers = .ok polled := by
    unfold pollStreams
    split
    · exact ⟨_, rfl⟩
    · next hq =>
      obtain rfl := (pollQueued_cases True hq).eq_of_none
      split
      · exact ⟨_, rfl⟩
      · next hc =>
        obtain rfl := (pollCircuits_cases True hc).eq_of_none
        split
        · exact ⟨_, rfl⟩
        · next hi =>
          obtain ⟨workers, hi⟩ := pollInbound_cases True hi
          obtain rfl := hi.eq_of_none
          obtain ⟨⟨event, after⟩, hp⟩ := ho workers
          rw [hp]
          cases event with
          | some => exact ⟨_, rfl⟩
          | none =>
            dsimp only
            split <;> exact ⟨_, rfl⟩
  obtain ⟨⟨event, after⟩, hp⟩ := hst
  unfold poll
  rw [hp]
  cases event with
  | some | none => exact ⟨_, _, rfl⟩

end Handler

/-! A relay server with its connections. Commands and events wait in queues, each in order, and a
connection may be lost at any time. Its last events still arrive before the behaviour hears that it is
closed. -/

variable {L : Type}

structure Link (Peer : Type) where
  peer : Peer
  /-- A relayed connection has a handler that does nothing. -/
  handler : Option (Handler Peer)
  /-- How many outbound streams are being opened. -/
  requested : Nat
  toHandler : List (HandlerIn Peer)
  toBehaviour : List (HandlerEvent Peer)
  alive : Bool

namespace Link

def new (peer : Peer) (endpoint : ConnectedPoint Peer) : Link Peer where
  peer := peer
  handler := if endpoint.isRelayed then none else some (.new endpoint)
  requested := 0
  toHandler := []
  toBehaviour := []
  alive := true

section

variable (link : Link Peer)

def command : Except Panic (Link Peer) :=
  match link.toHandler, link.handler with
  | [], _ => .ok link
  | _ :: _, none => .error .mismatchedHandler
  | event :: rest, some handler => .ok { link with toHandler := rest, handler := some (handler.onBehaviourEvent event) }

/-- What a poll of the handler returned goes to the swarm. -/
def pushOut : Option (HandlerOut Peer) → Link Peer
  | none => link
  | some .outboundSubstreamRequest => { link with requested := link.requested + 1 }
  | some (.notifyBehaviour event) => { link with toBehaviour := link.toBehaviour ++ [event] }

section

variable (handler : Handler Peer)

def pollHandler (answers : TaskAnswers Peer) : Except Panic (Link Peer) :=
  match handler.poll answers with
  | .error panic => .error panic
  | .ok (event, handler) => .ok ({ link with handler := some handler }.pushOut event)

def inboundStream : Except Panic (Link Peer) :=
  .ok { link with handler := some handler.onFullyNegotiatedInbound }

def outboundStream (error : Option StreamUpgradeError) : Except Panic (Link Peer) :=
  match link.requested with
  | 0 => .ok link
  | requested + 1 =>
    let outcome :=
      match error with
      | none => handler.onFullyNegotiatedOutbound
      | some error => handler.onDialUpgradeError error
    match outcome with
    | .error panic => .error panic
    | .ok handler => .ok { link with handler := some handler, requested := requested }

end
end

/-- What the handler does while the connection is not lost. -/
def running (act : Link Peer → Handler Peer → Except Panic (Link Peer)) (link : Link Peer) : Except Panic (Link Peer) :=
  match link.alive, link.handler with
  | true, some handler => act link handler
  | _, _ => .ok link

end Link

open Link

/-- A change of one connection. If it is the end of a reservation, then `fires` holds. -/
inductive LinkStep (fires : Prop) (link : Link Peer) : Link Peer → Prop where
  | same : LinkStep fires link link
  | disconnect : LinkStep fires link { link with alive := false, toHandler := [] }
  | command {event : HandlerIn Peer} {rest : List (HandlerIn Peer)} {handler : Handler Peer}
      (hcommand : link.toHandler = event :: rest) (hhandler : link.handler = some handler) :
      LinkStep fires link { link with toHandler := rest, handler := some (handler.onBehaviourEvent event) }
  | inbound {handler : Handler Peer} (hhandler : link.handler = some handler) (workers : Nat) :
      LinkStep fires link { link with handler := some (handler.withInbound workers) }
  | opened {handler after : Handler Peer} {requested : Nat} (hhandler : link.handler = some handler)
      (hrequested : link.requested = requested + 1) (hopened : handler.onFullyNegotiatedOutbound = .ok after) :
      LinkStep fires link { link with handler := some after, requested := requested }
  | failed {handler after : Handler Peer} {requested : Nat} (error : StreamUpgradeError)
      (hhandler : link.handler = some handler) (hrequested : link.requested = requested + 1)
      (hfailed : handler.onDialUpgradeError error = .ok after) :
      LinkStep fires link { link with handler := some after, requested := requested }
  | polled {handler after : Handler Peer} {event : Option (HandlerOut Peer)} {workers : Nat}
      (hhandler : link.handler = some handler) (halive : link.alive)
      (hpoll : (handler.withInbound workers).PollStep fires event after) :
      LinkStep fires link ({ link with handler := some after }.pushOut event)

namespace Link

variable {link after : Link Peer} {fires : Prop} {handler : Handler Peer}

theorem running_cases {act : Link Peer → Handler Peer → Except Panic (Link Peer)} (hok : link.running act = .ok after)
    (ha : ∀ handler, link.alive → link.handler = some handler → act link handler = .ok after →
      LinkStep fires link after) : LinkStep fires link after := by
  unfold running at hok
  split at hok
  · next hal hh => exact ha _ hal hh hok
  · cases hok
    exact .same

theorem command_cases (hok : link.command = .ok after) : LinkStep fires link after := by
  unfold command at hok
  split at hok
  · cases hok
    exact .same
  · cases hok
  · next hc hh =>
    cases hok
    exact .command hc hh

theorem outboundStream_cases {err : Option StreamUpgradeError} (hh : link.handler = some handler)
    (hok : link.outboundStream handler err = .ok after) : LinkStep fires link after := by
  unfold outboundStream at hok
  split at hok
  · cases hok
    exact .same
  · next hr =>
    cases err with
    | none =>
      dsimp only at hok
      split at hok
      · cases hok
      · next ho =>
        cases hok
        exact .opened hh hr ho
    | some err =>
      dsimp only at hok
      split at hok
      · cases hok
      · next hf =>
        cases hok
        exact .failed err hh hr hf

theorem pollHandler_cases {ans : TaskAnswers Peer} (hf : handler.timerFires ans → fires)
    (hh : link.handler = some handler) (ha : link.alive)
    (hok : link.pollHandler handler ans = .ok after) : LinkStep fires link after := by
  unfold pollHandler at hok
  split at hok
  · cases hok
  · next hp =>
    cases hok
    obtain ⟨_, hs⟩ := Handler.poll_cases hf hp
    exact .polled hh ha hs

end Link

variable [LinearOrder Peer]

structure System (Peer L : Type) [LinearOrder Peer] where
  behaviour : Behaviour Peer L
  links : OrdMap ConnectionId (Link Peer)
  nextConnection : ConnectionId

/-- What can happen next. Where a connection is named that is not there, nothing happens. -/
inductive Input (Peer : Type) where
  | establish (peer : Peer) (endpoint : ConnectedPoint Peer)
  | disconnect (connection : ConnectionId)
  /-- The behaviour is told of a lost connection, after its last event. -/
  | closed (connection : ConnectionId)
  /-- The behaviour is given the next event of a handler. -/
  | deliver (connection : ConnectionId) (now : Nat) (iter : IterOrder)
  | pollBehaviour
  | command (connection : ConnectionId)
  | inboundStream (connection : ConnectionId)
  /-- An outbound stream is open, or it cannot be opened. -/
  | outboundStream (connection : ConnectionId) (error : Option StreamUpgradeError)
  | pollHandler (connection : ConnectionId) (answers : TaskAnswers Peer)

namespace System

def new (behaviour : Behaviour Peer L) : System Peer L := ⟨behaviour, .empty, 0⟩

section

variable (system : System Peer L) (connection : ConnectionId) (link : Link Peer)

def setLink : System Peer L := { system with links := system.links.insert connection link }

def establish (peer : Peer) (endpoint : ConnectedPoint Peer) : System Peer L where
  behaviour := system.behaviour.onConnectionEstablished peer system.nextConnection
  links := system.links.insert system.nextConnection (.new peer endpoint)
  nextConnection := system.nextConnection + 1

/-- The task of a connection ends; commands on their way are lost. -/
def disconnect : System Peer L := system.setLink connection { link with alive := false, toHandler := [] }

def closed : System Peer L :=
  if link.alive = false ∧ link.toBehaviour = [] then
    { system with
      behaviour := system.behaviour.onConnectionClosed link.peer connection
      links := system.links.erase connection }
  else system

def deliver (now : Nat) (iter : IterOrder) : Except Panic (System Peer L) :=
  match link.toBehaviour with
  | [] => .ok system
  | event :: rest =>
    match system.behaviour.onConnectionHandlerEvent link.peer connection now iter event with
    | .error panic => .error panic
    | .ok behaviour => .ok ({ system with behaviour := behaviour }.setLink connection { link with toBehaviour := rest })

end

section

variable (system : System Peer L)

/-- A command for a lost connection is dropped. -/
def send (connection : ConnectionId) (command : HandlerIn Peer) : System Peer L :=
  match system.links.get? connection with
  | none => system
  | some link =>
    if link.alive then system.setLink connection { link with toHandler := link.toHandler ++ [command] } else system

def pollBehaviour : List (Event Peer) × System Peer L :=
  match system.behaviour.poll with
  | none => ([], system)
  | some (.generateEvent event, behaviour) => ([event], { system with behaviour := behaviour })
  | some (.notifyHandler _ connection command, behaviour) =>
    ([], { system with behaviour := behaviour }.send connection command)

def withLink (connection : ConnectionId)
    (act : Link Peer → Except Panic (System Peer L)) : Except Panic (System Peer L) :=
  match system.links.get? connection with
  | none => .ok system
  | some link => act link

def update (connection : ConnectionId) (act : Link Peer → Except Panic (Link Peer)) : Except Panic (System Peer L) :=
  system.withLink connection fun link =>
    match act link with
    | .error panic => .error panic
    | .ok link => .ok (system.setLink connection link)

end

def silently : Except Panic (System Peer L) → Except Panic (List (Event Peer) × System Peer L)
  | .error panic => .error panic
  | .ok system => .ok ([], system)

def step (system : System Peer L) : Input Peer → Except Panic (List (Event Peer) × System Peer L)
  | .establish peer endpoint => .ok ([], system.establish peer endpoint)
  | .disconnect connection => silently (system.withLink connection fun link => .ok (system.disconnect connection link))
  | .closed connection => silently (system.withLink connection fun link => .ok (system.closed connection link))
  | .deliver connection now iter =>
    silently (system.withLink connection fun link => system.deliver connection link now iter)
  | .pollBehaviour => .ok system.pollBehaviour
  | .command connection => silently (system.update connection command)
  | .inboundStream connection => silently (system.update connection (running inboundStream))
  | .outboundStream connection error =>
    silently (system.update connection (running fun link handler => link.outboundStream handler error))
  | .pollHandler connection answers =>
    silently (system.update connection (running fun link handler => link.pollHandler handler answers))

/-! ### What a step can do -/

/-- The timer of a reservation has run out and is asked in this step. -/
def timerFires (system : System Peer L) : Input Peer → Bool
  | .pollHandler connection answers =>
    (system.links.get? connection).any fun link =>
      link.alive && link.handler.any fun handler => handler.timerFires answers
  | _ => false

inductive SystemStep (system : System Peer L) : Input Peer → List (Event Peer) → System Peer L → Prop where
  | same (input : Input Peer) : SystemStep system input [] system
  | establish (peer : Peer) (endpoint : ConnectedPoint Peer) :
      SystemStep system (.establish peer endpoint) [] (system.establish peer endpoint)
  | link {input : Input Peer} {connection : ConnectionId} {link after : Link Peer}
      (hlink : system.links.get? connection = some link)
      (hstep : LinkStep (system.timerFires input = true ∧ ∃ answers, input = .pollHandler connection answers) link
        after) :
      SystemStep system input [] (system.setLink connection after)
  | closed {connection : ConnectionId} {link : Link Peer} (hlink : system.links.get? connection = some link)
      (hdead : link.alive = false) (hdelivered : link.toBehaviour = []) :
      SystemStep system (.closed connection) [] { system with
          behaviour := system.behaviour.onConnectionClosed link.peer connection
          links := system.links.erase connection }
  | deliver {connection : ConnectionId} {link : Link Peer} {event : HandlerEvent Peer} {rest : List (HandlerEvent Peer)}
      {now : Nat} {iter : IterOrder} {behaviour : Behaviour Peer L} (hlink : system.links.get? connection = some link)
      (hevent : link.toBehaviour = event :: rest)
      (hhandled : system.behaviour.onConnectionHandlerEvent link.peer connection now iter event = .ok behaviour) :
      SystemStep system (.deliver connection now iter) []
        ({ system with behaviour := behaviour }.setLink connection { link with toBehaviour := rest })
  | generate {event : Event Peer} {actions : List (Action Peer)}
      (hactions : system.behaviour.queuedActions = .generateEvent event :: actions) :
      SystemStep system .pollBehaviour [event]
        { system with behaviour := { system.behaviour with queuedActions := actions } }
  | notify {peer : Peer} {connection : ConnectionId} {command : HandlerIn Peer} {actions : List (Action Peer)}
      (hactions : system.behaviour.queuedActions = .notifyHandler peer connection command :: actions) :
      SystemStep system .pollBehaviour []
        ({ system with behaviour := { system.behaviour with queuedActions := actions } }.send connection command)

variable {after system : System Peer L} {events : List (Event Peer)} {connection : ConnectionId} {input : Input Peer}

theorem step_of_withLink {act : Link Peer → Except Panic (System Peer L)}
    (hok : silently (system.withLink connection act) = .ok (events, after))
    (ha : ∀ link, system.links.get? connection = some link → act link = .ok after →
      SystemStep system input [] after) : SystemStep system input events after := by
  unfold withLink at hok
  split at hok
  · cases hok
    exact .same _
  · next link hl =>
    cases hr : act link with
    | error =>
      rw [hr] at hok
      cases hok
    | ok =>
      rw [hr] at hok
      cases hok
      exact ha link hl hr

theorem step_of_update {act : Link Peer → Except Panic (Link Peer)}
    (hok : silently (system.update connection act) = .ok (events, after))
    (ha : ∀ link changed, system.links.get? connection = some link → act link = .ok changed →
      LinkStep (system.timerFires input ∧ ∃ ans, input = .pollHandler connection ans) link changed) :
    SystemStep system input events after := by
  refine step_of_withLink hok fun link hl hu => ?_
  split at hu
  · cases hu
  · next changed hc =>
    cases hu
    exact .link hl (ha link changed hl hc)

theorem step_cases (hok : system.step input = .ok (events, after)) : SystemStep system input events after := by
  cases input with
  | establish peer ep =>
    cases hok
    exact .establish peer ep
  | disconnect =>
    refine step_of_withLink hok fun link hl ha => ?_
    cases ha
    exact .link hl .disconnect
  | closed =>
    refine step_of_withLink hok fun link hl ha => ?_
    cases ha
    unfold closed
    split_ifs with hc
    · exact .closed hl hc.1 hc.2
    · exact .same _
  | deliver =>
    refine step_of_withLink hok fun link hl ha => ?_
    unfold deliver at ha
    split at ha
    · cases ha
      exact .same _
    · next he =>
      split at ha
      · cases ha
      · next hh =>
        cases ha
        exact .deliver hl he hh
  | pollBehaviour =>
    have hp := Except.ok.inj hok
    unfold pollBehaviour Behaviour.poll at hp
    cases hac : system.behaviour.queuedActions with
    | nil =>
      rw [hac] at hp
      cases hp
      exact .same _
    | cons act =>
      rw [hac] at hp
      cases act with
      | generateEvent =>
        cases hp
        exact .generate hac
      | notifyHandler =>
        cases hp
        exact .notify hac
  | command => exact step_of_update hok fun _ _ _ => command_cases
  | inboundStream =>
    refine step_of_update hok fun link changed hl ha => running_cases ha fun handler _ hha ha => ?_
    cases ha
    unfold Handler.onFullyNegotiatedInbound
    split_ifs
    · exact .inbound hha _
    · exact .inbound hha handler.inboundWorkers
  | outboundStream =>
    exact step_of_update hok fun _ _ _ ha => running_cases ha fun _ _ => outboundStream_cases
  | pollHandler connection ans =>
    refine step_of_update hok fun link changed hl ha => running_cases ha fun handler hal hha => ?_
    refine pollHandler_cases (fun hf => ⟨?_, ans, rfl⟩) hha hal
    simp [timerFires, hl, hal, hha, hf]

end System
end RustLibp2p.Relay
