import RustLibp2p.RelayClient
import RustLibp2p.Transition

/-! A relay client with its listeners and connections, which take their turns in any order. -/

namespace RustLibp2p.Relay.Client
open Client.Behaviour

variable {Peer : Type}

structure Link (Peer : Type) where
  peer : Peer
  endpoint : ConnectedPoint Peer
  /-- A relayed connection has a handler that does nothing. -/
  handler : Option (Handler Peer)
  toHandler : List (HandlerIn Peer)
  toBehaviour : List (HandlerEvent Peer)
  alive : Bool

namespace Link

def command (link : Link Peer) : Except Panic (Link Peer) :=
  match link.toHandler, link.handler with
  | [], _ => .ok link
  | _ :: _, none => .error .mismatchedHandler
  | event :: rest, some handler => .ok { link with toHandler := rest, handler := some (handler.onBehaviourEvent event) }

/-- What the handler does while the connection is not lost. -/
def running (act : Handler Peer → Option (HandlerOut Peer) × Handler Peer) (link : Link Peer) : Link Peer :=
  match link.alive, link.handler with
  | true, some handler =>
    match act handler with
    | (some (.notifyBehaviour event), handler) =>
      { link with handler := some handler, toBehaviour := link.toBehaviour ++ [event] }
    | (_, handler) => { link with handler := some handler }
  | _, _ => link

def lost (link : Link Peer) : Link Peer := { link with alive := false, toHandler := [] }

end Link

def HandlerIn.isReserve : HandlerIn Peer → Bool
  | reserve _ => true
  | establishCircuit _ _ => false

/-- A change of one connection. What its handler reports or leaves to be reported was to be expected. -/
inductive LinkStep (link : Link Peer) : Link Peer → Prop where
  | same : LinkStep link link
  | lost : LinkStep link link.lost
  | command {event : HandlerIn Peer} {rest : List (HandlerIn Peer)} {handler : Handler Peer}
      (hcommand : link.toHandler = event :: rest) (hhandler : link.handler = some handler) :
      LinkStep link { link with toHandler := rest, handler := some (handler.onBehaviourEvent event) }
  | ran {handler after : Handler Peer} {events : List (HandlerEvent Peer)} (halive : link.alive = true)
      (hhandler : link.handler = some handler) (hafter : after.expects = true → handler.expects = true)
      (hevents : ∀ event ∈ events, event.isAccepted = true → handler.expects = true) :
      LinkStep link { link with handler := some after, toBehaviour := link.toBehaviour ++ events }

theorem LinkStep.ran_nil {link : Link Peer} {handler after : Handler Peer} (ha : link.alive)
    (hh : link.handler = some handler) (haf : after.expects → handler.expects) :
    LinkStep link { link with handler := some after } := by
  have hn : ∀ ev ∈ ([] : List (HandlerEvent Peer)), ev.isAccepted → handler.expects := nofun
  have hs := LinkStep.ran ha hh haf hn
  rwa [List.append_nil] at hs

namespace Link

theorem running_cases {act : Handler Peer → Option (HandlerOut Peer) × Handler Peer} (link : Link Peer)
    (ha : ∀ handler after out, act handler = (out, after) → (after.expects → handler.expects) ∧
      ∀ ev, out = some (.notifyBehaviour ev) → ev.isAccepted → handler.expects) :
    LinkStep link (link.running act) := by
  unfold running
  split
  · next hal hh =>
    split
    · next ev after hrun =>
      refine .ran hal hh (ha _ _ _ hrun).1 ?_
      intro _ ho
      rw [List.mem_singleton.1 ho]
      exact (ha _ _ _ hrun).2 ev rfl
    · next after _ hrun =>
      exact .ran_nil hal hh (ha _ _ _ hrun).1
  · exact .same

theorem command_cases {link after : Link Peer} (hok : link.command = .ok after) : LinkStep link after := by
  unfold command at hok
  split at hok
  · cases hok
    exact .same
  · cases hok
  · next hc hh =>
    cases hok
    exact .command hc hh

end Link

variable [LinearOrder Peer]

structure System (Peer : Type) [LinearOrder Peer] where
  behaviour : Behaviour Peer
  links : OrdMap ConnectionId (Link Peer)
  /-- The connections that are being dialed for the behaviour. -/
  dialing : OrdMap ConnectionId Peer
  /-- The open listeners, each with the connection and the address that its reservation was asked for on. -/
  listeners : OrdMap ListenerId (Option (ConnectionId × Multiaddr Peer))
  nextConnection : ConnectionId
  nextListener : ListenerId

/-- What can happen next. Where something is named that is not there, nothing happens. -/
inductive Input (Peer : Type) where
  | listenOn (relay : Peer) (relayAddr : Multiaddr Peer)
  | dialThrough (request : RequestId) (relayAddr : Multiaddr Peer) (relay dst : Peer)
  | closeListener (listener : ListenerId)
  /-- A connection that the behaviour did not dial. -/
  | establish (peer : Peer) (endpoint : ConnectedPoint Peer)
  | establishDialed (connection : ConnectionId) (address : Multiaddr Peer)
  | dialFailed (connection : ConnectionId)
  | disconnect (connection : ConnectionId)
  /-- The behaviour is told of a lost connection, after its last event. -/
  | closed (connection : ConnectionId)
  /-- The behaviour is given the next event of a handler. -/
  | deliver (connection : ConnectionId)
  | pollBehaviour
  | command (connection : ConnectionId)
  | inboundStream (connection : ConnectionId)
  | pollHandler (connection : ConnectionId) (turns : List (TurnAnswers Peer))

namespace System

def new (localPeerId : Peer) : System Peer := ⟨.new localPeerId, .empty, .empty, .empty, 0, 0⟩

def send (system : System Peer) (msg : TransportToBehaviourMsg Peer) : System Peer :=
  { system with
    behaviour := { system.behaviour with fromTransport := system.behaviour.fromTransport ++ [msg] } }

def listenOn (system : System Peer) (relay : Peer) (relayAddr : Multiaddr Peer) : System Peer :=
  { system.send (.listenReq system.nextListener relay relayAddr) with
    listeners := system.listeners.insert system.nextListener none
    nextListener := system.nextListener + 1 }

def closeListener (system : System Peer) (listener : ListenerId) : System Peer :=
  if (system.listeners.get? listener).isSome then
    { system with
      behaviour := system.behaviour.onListenerClosed listener
      listeners := system.listeners.erase listener }
  else system

section

variable (system : System Peer) (connection : ConnectionId)

def addConnection (peer : Peer) (endpoint : ConnectedPoint Peer) : System Peer :=
  let (handler, behaviour) := system.behaviour.handleEstablishedConnection connection peer endpoint
  { system with
    behaviour := behaviour.onConnectionEstablished peer connection endpoint
    links := system.links.insert connection ⟨peer, endpoint, handler, [], [], true⟩ }

def establish (peer : Peer) (endpoint : ConnectedPoint Peer) : System Peer :=
  { system.addConnection system.nextConnection peer endpoint with nextConnection := system.nextConnection + 1 }

def establishDialed (address : Multiaddr Peer) : System Peer :=
  match system.dialing.get? connection with
  | none => system
  | some peer =>
    { system.addConnection connection peer (.dialer address) with dialing := system.dialing.erase connection }

def released (connection : ConnectionId) :
    Option (ConnectionId × Multiaddr Peer) → Option (ConnectionId × Multiaddr Peer)
  | some (other, addr) => if other = connection then none else some (other, addr)
  | none => none

def dialFailed : System Peer :=
  match system.dialing.get? connection with
  | none => system
  | some _ =>
    { system with
      behaviour := system.behaviour.onDialFailure connection
      dialing := system.dialing.erase connection
      listeners := system.listeners.mapValues (released connection) }

def setLink (link : Link Peer) : System Peer := { system with links := system.links.insert connection link }

def closed (link : Link Peer) : Except Panic (System Peer) :=
  if link.alive = false ∧ link.toBehaviour = [] then
    match system.behaviour.onConnectionClosed link.peer connection link.endpoint with
    | .error panic => .error panic
    | .ok behaviour =>
      .ok { system with
        behaviour := behaviour
        links := system.links.erase connection
        listeners := system.listeners.mapValues (released connection) }
  else .ok system

def deliver (link : Link Peer) : Except Panic (System Peer) :=
  match link.toBehaviour with
  | [] => .ok system
  | event :: rest =>
    match system.behaviour.onConnectionHandlerEvent link.peer connection event with
    | .error panic => .error panic
    | .ok behaviour => .ok ({ system with behaviour := behaviour }.setLink connection { link with toBehaviour := rest })

/-- A command for a lost connection is dropped. -/
def notify (command : HandlerIn Peer) : System Peer :=
  match system.links.get? connection with
  | none => system
  | some link =>
    if link.alive then system.setLink connection { link with toHandler := link.toHandler ++ [command] } else system

end

section

variable (system : System Peer)

def perform : Action Peer → System Peer
  | .notifyHandler _ connection command => system.notify connection command
  | .dial connection peer _ =>
    { system with
      dialing := system.dialing.insert connection peer
      nextConnection := system.nextConnection + 1 }
  | _ => system

/-- The connection that the reservation of a listener will be asked for on. -/
def connectionFor (relay : Peer) : ConnectionId := (system.behaviour.relayConnection? relay).getD system.nextConnection

/-- The listener whose request is taken up by the next poll, with its connection and address. -/
def takesUp : Option (ListenerId × ConnectionId × Multiaddr Peer) :=
  match system.behaviour.queuedActions, system.behaviour.fromTransport with
  | [], .listenReq listener relay relayAddr :: _ =>
    some (listener, system.connectionFor relay, system.behaviour.circuitAddr relay relayAddr)
  | _, _ => none

def pollBehaviour : List (Action Peer) × System Peer :=
  match system.behaviour.poll system.nextConnection with
  | none => ([], system)
  | some (action, behaviour) =>
    let listeners :=
      match system.takesUp with
      | some (listener, connection, addr) => system.listeners.adjust listener fun _ => some (connection, addr)
      | none => system.listeners
    ([action], { system with behaviour := behaviour, listeners := listeners }.perform action)

def withLink (connection : ConnectionId) (act : Link Peer → Except Panic (System Peer)) : Except Panic (System Peer) :=
  match system.links.get? connection with
  | none => .ok system
  | some link => act link

def update (connection : ConnectionId) (act : Link Peer → Except Panic (Link Peer)) : Except Panic (System Peer) :=
  system.withLink connection fun link =>
    match act link with
    | .error panic => .error panic
    | .ok link => .ok (system.setLink connection link)

end

def silently : Except Panic (System Peer) → Except Panic (List (Action Peer) × System Peer)
  | .error panic => .error panic
  | .ok system => .ok ([], system)

def step (system : System Peer) : Input Peer → Except Panic (List (Action Peer) × System Peer)
  | .listenOn relay relayAddr => .ok ([], system.listenOn relay relayAddr)
  | .dialThrough request relayAddr relay dst => .ok ([], system.send (.dialReq request relayAddr relay dst))
  | .closeListener listener => .ok ([], system.closeListener listener)
  | .establish peer endpoint => .ok ([], system.establish peer endpoint)
  | .establishDialed connection address => .ok ([], system.establishDialed connection address)
  | .dialFailed connection => .ok ([], system.dialFailed connection)
  | .disconnect connection => silently (system.update connection fun link => .ok link.lost)
  | .closed connection => silently (system.withLink connection fun link => system.closed connection link)
  | .deliver connection => silently (system.withLink connection fun link => system.deliver connection link)
  | .pollBehaviour => .ok system.pollBehaviour
  | .command connection => silently (system.update connection Link.command)
  | .inboundStream connection =>
    silently (system.update connection fun link =>
      .ok (link.running fun handler => (none, handler.onFullyNegotiatedInbound)))
  | .pollHandler connection turns =>
    silently (system.update connection fun link => .ok (link.running fun handler => handler.poll turns))

/-! ### What a step can do -/

/-- The request of a listener is taken up. -/
def takeUp (system : System Peer) (msgs : List (TransportToBehaviourMsg Peer)) (listener : ListenerId)
    (connection : ConnectionId) (addr : Multiaddr Peer) : System Peer :=
  { system with
    behaviour := { system.behaviour with fromTransport := msgs }.assign listener connection addr
    listeners := system.listeners.adjust listener fun _ => some (connection, addr) }

/-- A relay is dialed, and a command waits for the connection. -/
def dial (system : System Peer) (peer : Peer) (command : HandlerIn Peer) : System Peer :=
  { system with
    behaviour := { system.behaviour with
      pendingHandlerCommands := system.behaviour.pendingHandlerCommands.insert system.nextConnection command }
    dialing := system.dialing.insert system.nextConnection peer
    nextConnection := system.nextConnection + 1 }

inductive SystemStep (system : System Peer) : Input Peer → List (Action Peer) → System Peer → Prop where
  | same (input : Input Peer) : SystemStep system input [] system
  | listenOn (relay : Peer) (relayAddr : Multiaddr Peer) :
      SystemStep system (.listenOn relay relayAddr) [] (system.listenOn relay relayAddr)
  | dialThrough (request : RequestId) (relayAddr : Multiaddr Peer) (relay dst : Peer) :
      SystemStep system (.dialThrough request relayAddr relay dst) []
        (system.send (.dialReq request relayAddr relay dst))
  | closeListener {listener : ListenerId} (hopen : (system.listeners.get? listener).isSome) :
      SystemStep system (.closeListener listener) [] { system with
          behaviour := system.behaviour.onListenerClosed listener
          listeners := system.listeners.erase listener }
  | establish (peer : Peer) (endpoint : ConnectedPoint Peer) :
      SystemStep system (.establish peer endpoint) [] (system.establish peer endpoint)
  | establishDialed {connection : ConnectionId} {peer : Peer} (address : Multiaddr Peer)
      (hdialing : system.dialing.get? connection = some peer) :
      SystemStep system (.establishDialed connection address) []
        { system.addConnection connection peer (.dialer address) with dialing := system.dialing.erase connection }
  | dialFailed {connection : ConnectionId} {peer : Peer} (hdialing : system.dialing.get? connection = some peer) :
      SystemStep system (.dialFailed connection) [] { system with
          behaviour := system.behaviour.onDialFailure connection
          dialing := system.dialing.erase connection
          listeners := system.listeners.mapValues (released connection) }
  | link {input : Input Peer} {connection : ConnectionId} {link after : Link Peer}
      (hlink : system.links.get? connection = some link) (hstep : LinkStep link after) :
      SystemStep system input [] (system.setLink connection after)
  | closed {connection : ConnectionId} {link : Link Peer} {behaviour : Behaviour Peer}
      (hlink : system.links.get? connection = some link) (hdead : link.alive = false)
        (hdelivered : link.toBehaviour = [])
      (hclosed : system.behaviour.onConnectionClosed link.peer connection link.endpoint = .ok behaviour) :
      SystemStep system (.closed connection) [] { system with
          behaviour := behaviour
          links := system.links.erase connection
          listeners := system.listeners.mapValues (released connection) }
  | deliver {connection : ConnectionId} {link : Link Peer} {event : HandlerEvent Peer} {rest : List (HandlerEvent Peer)}
      {behaviour : Behaviour Peer} (hlink : system.links.get? connection = some link)
      (hevent : link.toBehaviour = event :: rest)
      (hhandled : system.behaviour.onConnectionHandlerEvent link.peer connection event = .ok behaviour) :
      SystemStep system (.deliver connection) []
        ({ system with behaviour := behaviour }.setLink connection { link with toBehaviour := rest })
  | act {action : Action Peer} {actions : List (Action Peer)}
    (hactions : system.behaviour.queuedActions = action :: actions) :
      SystemStep system .pollBehaviour [action]
        ({ system with behaviour := { system.behaviour with queuedActions := actions } }.perform action)
  | reserve {listener : ListenerId} {relay : Peer} {relayAddr : Multiaddr Peer}
    {msgs : List (TransportToBehaviourMsg Peer)}
      {connection : ConnectionId} (hactions : system.behaviour.queuedActions = [])
      (hmsgs : system.behaviour.fromTransport = .listenReq listener relay relayAddr :: msgs)
      (hrelay : system.behaviour.relayConnection? relay = some connection) :
      SystemStep system .pollBehaviour [.notifyHandler relay connection (.reserve listener)]
        ((system.takeUp msgs listener connection (system.behaviour.circuitAddr relay relayAddr)).notify connection
          (.reserve listener))
  | reserveLater {listener : ListenerId} {relay : Peer} {relayAddr : Multiaddr Peer}
      {msgs : List (TransportToBehaviourMsg Peer)} (hactions : system.behaviour.queuedActions = [])
      (hmsgs : system.behaviour.fromTransport = .listenReq listener relay relayAddr :: msgs)
      (hrelay : system.behaviour.relayConnection? relay = none) :
      SystemStep system .pollBehaviour [.dial system.nextConnection relay [relayAddr]]
        ((system.takeUp msgs listener system.nextConnection (system.behaviour.circuitAddr relay relayAddr)).dial relay
          (.reserve listener))
  | circuit {request : RequestId} {relayAddr : Multiaddr Peer} {relay dst : Peer}
      {msgs : List (TransportToBehaviourMsg Peer)} {connection : ConnectionId}
      (hactions : system.behaviour.queuedActions = [])
      (hmsgs : system.behaviour.fromTransport = .dialReq request relayAddr relay dst :: msgs)
      (hrelay : system.behaviour.relayConnection? relay = some connection) :
      SystemStep system .pollBehaviour [.notifyHandler relay connection (.establishCircuit dst request)]
        ({ system with behaviour := { system.behaviour with fromTransport := msgs } }.notify connection
          (.establishCircuit dst request))
  | circuitLater {request : RequestId} {relayAddr : Multiaddr Peer} {relay dst : Peer}
      {msgs : List (TransportToBehaviourMsg Peer)} (hactions : system.behaviour.queuedActions = [])
      (hmsgs : system.behaviour.fromTransport = .dialReq request relayAddr relay dst :: msgs)
      (hrelay : system.behaviour.relayConnection? relay = none) :
      SystemStep system .pollBehaviour [.dial system.nextConnection relay [relayAddr]]
        ({ system with behaviour := { system.behaviour with fromTransport := msgs } }.dial relay
          (.establishCircuit dst request))

variable {actions : List (Action Peer)} {after system : System Peer}
  {connection : ConnectionId} {input : Input Peer} {relayAddr : Multiaddr Peer}
  {msgs : List (TransportToBehaviourMsg Peer)}

theorem step_of_withLink {act : Link Peer → Except Panic (System Peer)}
    (hok : silently (system.withLink connection act) = .ok (actions, after))
    (ha : ∀ link, system.links.get? connection = some link → act link = .ok after →
      SystemStep system input [] after) : SystemStep system input actions after := by
  unfold withLink at hok
  split at hok
  · cases hok
    exact .same _
  · next link hl =>
    cases hr : act link with
    | error =>
      rw [hr] at hok
      cases hok
    | ok =>
      rw [hr] at hok
      cases hok
      exact ha link hl hr

theorem step_of_update {act : Link Peer → Except Panic (Link Peer)}
    (hok : silently (system.update connection act) = .ok (actions, after))
    (ha : ∀ link changed, act link = .ok changed → LinkStep link changed) :
    SystemStep system input actions after := by
  refine step_of_withLink hok fun link hl hu => ?_
  split at hu
  · cases hu
  · next changed hc =>
    cases hu
    exact .link hl (ha link changed hc)

theorem takesUp_of_listenReq {listener : ListenerId} {relay : Peer} (ha : system.behaviour.queuedActions = [])
    (hm : system.behaviour.fromTransport = .listenReq listener relay relayAddr :: msgs) :
    system.takesUp = some (listener, system.connectionFor relay, system.behaviour.circuitAddr relay relayAddr) := by
  rw [takesUp, ha, hm]

theorem pollBehaviour_cases
    (hok : system.pollBehaviour = (actions, after)) : SystemStep system .pollBehaviour actions after := by
  unfold pollBehaviour at hok
  cases ha : system.behaviour.queuedActions with
  | cons =>
    rw [poll, takesUp, ha] at hok
    cases hok
    exact .act ha
  | nil =>
    cases hm : system.behaviour.fromTransport with
    | nil =>
      have hn : system.behaviour.poll system.nextConnection = none := by rw [poll, ha, hm]
      rw [hn] at hok
      cases hok
      exact .same _
    | cons msg msgs =>
      rw [poll_of_msg ha hm] at hok
      generalize ht : { system.behaviour with fromTransport := msgs } = taken at hok
      cases msg with
      | listenReq listener relay =>
        have hs : taken.relayConnection? relay = system.behaviour.relayConnection? relay := ht ▸ rfl
        rw [takesUp_of_listenReq ha hm, connectionFor, onTransportMsg, hs] at hok
        cases ht
        cases hr : system.behaviour.relayConnection? relay with
        | some =>
          rw [hr] at hok
          cases hok
          exact .reserve ha hm hr
        | none =>
          rw [hr] at hok
          cases hok
          exact .reserveLater ha hm hr
      | dialReq req relayAddr relay =>
        have hs : taken.relayConnection? relay = system.behaviour.relayConnection? relay := ht ▸ rfl
        rw [takesUp, ha, hm, onTransportMsg, hs] at hok
        cases ht
        cases hr : system.behaviour.relayConnection? relay with
        | some =>
          rw [hr] at hok
          cases hok
          exact .circuit ha hm hr
        | none =>
          rw [hr] at hok
          cases hok
          exact .circuitLater ha hm hr

theorem step_cases (hok : system.step input = .ok (actions, after)) : SystemStep system input actions after := by
  cases input with
  | listenOn relay relayAddr =>
    cases hok
    exact .listenOn relay relayAddr
  | dialThrough req relayAddr relay dst =>
    cases hok
    exact .dialThrough req relayAddr relay dst
  | closeListener =>
    cases hok
    unfold closeListener
    split_ifs with ho
    · exact .closeListener ho
    · exact .same _
  | establish peer ep =>
    cases hok
    exact .establish peer ep
  | establishDialed connection address =>
    cases hok
    unfold establishDialed
    split
    · exact .same _
    · next hd => exact .establishDialed address hd
  | dialFailed =>
    cases hok
    unfold dialFailed
    split
    · exact .same _
    · next hd => exact .dialFailed hd
  | disconnect =>
    refine step_of_update hok ?_
    rintro link changed ⟨⟩
    exact .lost
  | closed =>
    refine step_of_withLink hok fun link hl ha => ?_
    unfold closed at ha
    split_ifs at ha with hde
    · split at ha
      · cases ha
      · next hc =>
        cases ha
        exact .closed hl hde.1 hde.2 hc
    · cases ha
      exact .same _
  | deliver =>
    refine step_of_withLink hok fun link hl ha => ?_
    unfold deliver at ha
    split at ha
    · cases ha
      exact .same _
    · next he =>
      split at ha
      · cases ha
      · next hh =>
        cases ha
        exact .deliver hl he hh
  | pollBehaviour => exact pollBehaviour_cases (Except.ok.inj hok)
  | command => exact step_of_update hok fun _ _ => Link.command_cases
  | inboundStream =>
    refine step_of_update hok ?_
    rintro link changed ⟨⟩
    refine Link.running_cases link ?_
    rintro _ _ _ ⟨⟩
    refine ⟨?_, nofun⟩
    unfold Handler.onFullyNegotiatedInbound
    split_ifs <;> exact id
  | pollHandler =>
    refine step_of_update hok ?_
    rintro link changed ⟨⟩
    exact Link.running_cases link fun _ _ _ => Handler.expects_of_poll

end System
end RustLibp2p.Relay.Client
