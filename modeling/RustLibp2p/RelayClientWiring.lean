import RustLibp2p.RelayClientSystem

/-! What the behaviour of a relay client knows of its connections is right, and it knows the address of every
connection on which a reservation may still be reported. -/

namespace RustLibp2p.Relay.Client

open OrdMap List Option Bool Client.Behaviour Client.HandlerIn

variable {Peer : Type}

namespace Link

/-- A reservation may still be reported on the connection: the report is on its way, a request is or will be made, or
a reservation will be renewed. -/
def expecting (link : Link Peer) : Bool :=
  link.toBehaviour.any HandlerEvent.isAccepted ||
    (link.alive && (link.toHandler.any isReserve || link.handler.any Handler.expects))

end Link

section LinkStep

variable {link after : Link Peer}

section

variable (hstep : LinkStep link after)
include hstep

theorem LinkStep.keeps :
    after.peer = link.peer ∧ after.endpoint = link.endpoint ∧ after.handler.isSome = link.handler.isSome := by
  cases hstep with
  | same | lost => exact ⟨rfl, rfl, rfl⟩
  | command hc hh | ran ha hh haf he => exact ⟨rfl, rfl, by rw [hh]; rfl⟩

theorem LinkStep.idle (hi : link.handler = none → link.toHandler = [] ∧ link.toBehaviour = [])
    (hn : after.handler = none) : after.toHandler = [] ∧ after.toBehaviour = [] := by
  cases hstep with
  | same => exact hi hn
  | lost => exact ⟨rfl, (hi hn).2⟩
  | command | ran => cases hn

theorem LinkStep.expecting : after.expecting → link.expecting := by
  simp only [Link.expecting, or_eq_true, and_eq_true]
  cases hstep with
  | same => exact id
  | lost =>
    rintro (hr | ⟨ha, -⟩)
    · exact .inl hr
    · cases ha
  | command hc hh =>
    rename_i ev rest handler
    rintro (hr | ⟨ha, hre | he⟩)
    · exact .inl hr
    · refine .inr ⟨ha, .inl ?_⟩
      rw [hc, any_cons, hre, Bool.or_true]
    refine .inr ⟨ha, ?_⟩
    cases ev with
    | reserve =>
      left
      rw [hc]
      rfl
    | establishCircuit =>
      right
      rw [hh]
      exact he
  | ran ha hh haf hev =>
    rename_i handler afterHandler events
    have hb : handler.expects →
        link.toBehaviour.any HandlerEvent.isAccepted ∨ link.alive ∧
          (link.toHandler.any isReserve ∨ link.handler.any Handler.expects) :=
      fun he => .inr ⟨ha, .inr (by rw [hh]; exact he)⟩
    rintro (hr | ⟨-, hre | he⟩)
    · rw [any_append, or_eq_true, any_eq_true (l := events)] at hr
      rcases hr with ho | ⟨ev, hen, hac⟩
      · exact .inl ho
      · exact hb (hev ev hen hac)
    · exact .inr ⟨ha, .inl hre⟩
    · exact hb (haf he)

end
end LinkStep

/-- What `Wired` says of one connection, from what is found under its id. -/
structure System.WiredAt (known : Prop) (link? : Option (Link Peer)) (dialed : Option Peer)
    (command : Option (HandlerIn Peer)) (direct : Peer → Prop) (noted : Prop) : Prop where
  link : ∀ link, link? = some link → known ∧ link.handler.isSome = !link.endpoint.isRelayed ∧
    (link.handler = none → link.toHandler = [] ∧ link.toBehaviour = [])
  dialing : ∀ peer, dialed = some peer → known ∧ link? = none
  pending : ∀ cmd, command = some cmd → dialed.isSome = true
  direct : ∀ peer, direct peer ↔ ∃ link, link? = some link ∧ link.peer = peer ∧ link.endpoint.isRelayed = false
  covered : (command.any isReserve || link?.any Link.expecting) = true → noted

theorem System.WiredAt.mono {known later : Prop} {link? : Option (Link Peer)} {dialed : Option Peer}
    {command : Option (HandlerIn Peer)} {direct : Peer → Prop} {noted : Prop}
    (ha : WiredAt known link? dialed command direct noted) (hk : known → later) :
    WiredAt later link? dialed command direct noted :=
  { ha with
    link := fun link hl => (ha.link link hl).imp_left hk
    dialing := fun peer hd => (ha.dialing peer hd).imp_left hk }

variable [LinearOrder Peer]

namespace System

def expecting (system : System Peer) (connection : ConnectionId) : Bool :=
  (system.behaviour.pendingHandlerCommands.get? connection).any isReserve ||
    (system.links.get? connection).any Link.expecting

structure Wired (system : System Peer) : Prop where
  fresh : ∀ connection link, system.links.get? connection = some link → connection < system.nextConnection
  dialing : ∀ connection peer, system.dialing.get? connection = some peer →
    connection < system.nextConnection ∧ system.links.get? connection = none
  pending : ∀ connection command, system.behaviour.pendingHandlerCommands.get? connection = some command →
    (system.dialing.get? connection).isSome = true
  handler : ∀ connection link, system.links.get? connection = some link → link.handler.isSome = !link.endpoint.isRelayed
  idle : ∀ connection link, system.links.get? connection = some link → link.handler = none →
    link.toHandler = [] ∧ link.toBehaviour = []
  direct : ∀ peer connection, connection ∈ system.behaviour.connectionsOf peer ↔
    ∃ link, system.links.get? connection = some link ∧ link.peer = peer ∧ link.endpoint.isRelayed = false
  nodup : ∀ peer, (system.behaviour.connectionsOf peer).Nodup
  covered : ∀ connection, system.expecting connection = true →
    (system.behaviour.reservationAddresses.get? connection).isSome = true

variable {system : System Peer} {connection : ConnectionId} {link after : Link Peer}

theorem wired_new (localPeerId : Peer) : (new localPeerId).Wired where
  fresh := nofun
  dialing := nofun
  pending := nofun
  handler := nofun
  idle := nofun
  direct := fun _ _ => ⟨nofun, nofun⟩
  nodup := fun _ => nodup_nil
  covered := nofun

theorem Wired.links_nextConnection (hwir : system.Wired) : system.links.get? system.nextConnection = none :=
  eq_none_iff_forall_ne_some.2 fun link hlink => absurd (hwir.fresh _ link hlink) (Nat.lt_irrefl _)

def At (system : System Peer) (connection : ConnectionId) : Prop :=
  WiredAt (connection < system.nextConnection) (system.links.get? connection) (system.dialing.get? connection)
    (system.behaviour.pendingHandlerCommands.get? connection) (connection ∈ system.behaviour.connectionsOf ·)
    ((system.behaviour.reservationAddresses.get? connection).isSome = true)

theorem Wired.at (hwir : system.Wired) (connection : ConnectionId) : system.At connection where
  link := fun link hl => ⟨hwir.fresh _ link hl, hwir.handler _ link hl, hwir.idle _ link hl⟩
  dialing := hwir.dialing connection
  pending := hwir.pending connection
  direct := fun peer => hwir.direct peer connection
  covered := hwir.covered connection

theorem wired_of_at (ha : ∀ connection, system.At connection)
    (hn : ∀ peer, (system.behaviour.connectionsOf peer).Nodup) : system.Wired where
  fresh := fun connection link hl => ((ha connection).link link hl).1
  dialing := fun connection => (ha connection).dialing
  pending := fun connection => (ha connection).pending
  handler := fun connection link hl => ((ha connection).link link hl).2.1
  idle := fun connection link hl => ((ha connection).link link hl).2.2
  direct := fun peer connection => (ha connection).direct peer
  nodup := hn
  covered := fun connection => (ha connection).covered

theorem Wired.frame {after : System Peer} (hwir : system.Wired)
    (he : ∀ connection, system.expecting connection →
      (system.behaviour.reservationAddresses.get? connection).isSome →
      (after.behaviour.reservationAddresses.get? connection).isSome)
    (hl : after.links = system.links := by rfl) (hd : after.dialing = system.dialing := by rfl)
    (hn : after.nextConnection = system.nextConnection := by rfl)
    (hdi : ∀ peer, after.behaviour.connectionsOf peer = system.behaviour.connectionsOf peer := by exact fun _ => rfl)
    (hp : after.behaviour.pendingHandlerCommands = system.behaviour.pendingHandlerCommands := by rfl) :
    after.Wired := by
  refine wired_of_at (fun connection => ?_) fun peer => by rw [hdi]; exact hwir.nodup peer
  have ho := hwir.at connection
  unfold At
  rw [hl, hd, hn, hp]
  simp only [hdi]
  exact { ho with covered := fun hex => he connection hex (ho.covered hex) }

section

variable (hwir : system.Wired) (hlink : system.links.get? connection = some link)
include hwir hlink

theorem Wired.setLink
    (hk : after.peer = link.peer ∧ after.endpoint = link.endpoint ∧ after.handler.isSome = link.handler.isSome)
    (hi : after.handler = none → after.toHandler = [] ∧ after.toBehaviour = [])
    (he : after.expecting → link.expecting ∨
      (system.behaviour.reservationAddresses.get? connection).isSome) :
    (system.setLink connection after).Wired := by
  refine wired_of_at (fun other => ?_) hwir.nodup
  have ho := hwir.at other
  unfold At System.setLink
  rw [get?_insert]
  split_ifs with heq
  · subst heq
    unfold At at ho
    rw [hlink] at ho
    obtain ⟨hlt, hh, -⟩ := ho.link link rfl
    refine ⟨?_, fun peer hd => ?_, ho.pending, fun peer => (ho.direct peer).trans ?_, fun hex => ?_⟩
    · rintro _ ⟨⟩
      rw [hk.2.2, hk.2.1]
      exact ⟨hlt, hh, hi⟩
    · cases (ho.dialing peer hd).2
    · simp only [Option.some.injEq, exists_eq_left', hk.1, hk.2.1]
    · rw [any_some, or_eq_true] at hex
      rcases hex with hp | hex
      · exact ho.covered (by rw [hp, Bool.true_or])
      · exact (he hex).elim (fun hb => ho.covered (by rw [any_some, hb, Bool.or_true])) id
  · exact ho

theorem Wired.linkStep (hstep : LinkStep link after) : (system.setLink connection after).Wired :=
  hwir.setLink hlink hstep.keeps (hstep.idle (hwir.idle connection link hlink)) fun h => .inl (hstep.expecting h)

end

variable {peer : Peer} {behaviour : Behaviour Peer}
  {listeners : OrdMap ListenerId (Option (ConnectionId × Multiaddr Peer))} {listener : ListenerId}
  {command : HandlerIn Peer}

theorem Wired.notify (hwir : system.Wired) (hd : connection ∈ system.behaviour.connectionsOf peer)
    (he : command.isReserve → (system.behaviour.reservationAddresses.get? connection).isSome) :
    (system.notify connection command).Wired := by
  obtain ⟨link, hlink, -, hr⟩ := (hwir.direct peer connection).1 hd
  have hs := hwir.handler connection link hlink
  rw [hr] at hs
  unfold System.notify
  rw [hlink]
  dsimp only
  split_ifs
  · refine hwir.setLink hlink ⟨rfl, rfl, rfl⟩ ?_ ?_
    · intro hn
      rw [hn] at hs
      cases hs
    intro hex
    simp only [Link.expecting, any_append, any_cons, any_nil, Bool.or_false, Bool.or_eq_true, and_eq_true] at hex ⊢
    rcases hex with hre | ⟨ha, (hrs | hc) | hee⟩
    · exact .inl (.inl hre)
    · exact .inl (.inr ⟨ha, .inl hrs⟩)
    · exact .inr (he hc)
    · exact .inl (.inr ⟨ha, .inr hee⟩)
  · exact hwir

theorem Wired.dial (hwir : system.Wired) (he : command.isReserve →
      (system.behaviour.reservationAddresses.get? system.nextConnection).isSome) :
    (system.dial peer command).Wired := by
  refine wired_of_at (fun other => ?_) hwir.nodup
  have ho := hwir.at other
  unfold At System.dial
  dsimp only
  rw [get?_insert, get?_insert]
  split_ifs with heq
  · subst heq
    unfold At at ho
    rw [hwir.links_nextConnection] at ho ⊢
    refine ⟨nofun, fun _ _ => ⟨Nat.lt_succ_self _, rfl⟩, fun _ _ => rfl, ho.direct, fun hex => he ?_⟩
    exact (Bool.or_false _).symm.trans hex
  · exact ho.mono fun hlt => hlt.trans (Nat.lt_succ_self _)

variable {endpoint : ConnectedPoint Peer}

theorem expects_handleEstablishedConnection
    (he : (behaviour.handleEstablishedConnection connection peer endpoint).1.any Handler.expects) :
    (behaviour.pendingHandlerCommands.get? connection).any isReserve := by
  unfold handleEstablishedConnection at he
  split_ifs at he
  · cases he
  split at he
  · next command hc =>
    rw [hc]
    cases command with
    | reserve => rfl
    | establishCircuit => cases he
  · cases he

theorem handleEstablishedConnection_eq (behaviour : Behaviour Peer) (connection : ConnectionId) (peer : Peer)
    (endpoint : ConnectedPoint Peer) : (behaviour.handleEstablishedConnection connection peer endpoint).2 =
        { behaviour with pendingHandlerCommands := behaviour.pendingHandlerCommands.erase connection } ∧
      (behaviour.handleEstablishedConnection connection peer endpoint).1.isSome = !endpoint.isRelayed := by
  unfold handleEstablishedConnection
  split_ifs with hr
  · rw [hr]
    exact ⟨rfl, rfl⟩
  · rw [eq_false_iff.2 hr]
    split <;> exact ⟨rfl, rfl⟩

section AddConnection

variable (system : System Peer) (connection : ConnectionId) (peer : Peer) (endpoint : ConnectedPoint Peer)

theorem get?_addConnection (other : ConnectionId) : (system.addConnection connection peer endpoint).links.get? other =
      if other = connection then
        some ⟨peer, endpoint, (system.behaviour.handleEstablishedConnection connection peer endpoint).1, [], [], true⟩
      else system.links.get? other :=
  get?_insert _ _ _ _

theorem addConnection_behaviour : (system.addConnection connection peer endpoint).behaviour = { system.behaviour with
        pendingHandlerCommands := system.behaviour.pendingHandlerCommands.erase connection
        directlyConnectedPeers := (system.behaviour.onConnectionEstablished peer connection
          endpoint).directlyConnectedPeers } := by
  unfold addConnection
  dsimp only
  rw [(handleEstablishedConnection_eq system.behaviour connection peer endpoint).1]
  unfold onConnectionEstablished
  split_ifs <;> rfl

end AddConnection

theorem Wired.addConnection {dialing : OrdMap ConnectionId Peer}
    {next : ConnectionId} (hwir : system.Wired) (hf : system.links.get? connection = none)
    (hd : ∀ other, dialing.get? other = if other = connection then none else system.dialing.get? other)
    (hn : connection < next) (hg : system.nextConnection ≤ next) :
    Wired { system.addConnection connection peer endpoint with dialing, nextConnection := next } := by
  have hh := (handleEstablishedConnection_eq system.behaviour connection peer endpoint).2
  have hge := system.get?_addConnection connection peer endpoint
  have haf := system.addConnection_behaviour connection peer endpoint
  have hdi : ∀ other, (system.addConnection connection peer endpoint).behaviour.connectionsOf other =
      if endpoint.isRelayed = false ∧ other = peer then system.behaviour.connectionsOf other ++ [connection]
      else system.behaviour.connectionsOf other := by
    intro other
    rw [haf]
    exact connectionsOf_onConnectionEstablished system.behaviour peer connection endpoint other
  have hp : (system.addConnection connection peer endpoint).behaviour.pendingHandlerCommands =
      system.behaviour.pendingHandlerCommands.erase connection := by rw [haf]
  have he : (system.addConnection connection peer endpoint).behaviour.reservationAddresses =
      system.behaviour.reservationAddresses := by rw [haf]
  have hne : connection ∉ system.behaviour.connectionsOf peer := by
    intro hmem
    obtain ⟨link, hlink, -⟩ := (hwir.direct peer connection).1 hmem
    cases hf.symm.trans hlink
  refine wired_of_at (fun other => ?_) fun tgt => ?_
  · have ho := hwir.at other
    unfold At
    dsimp only
    simp only [hge, hd, hp, he, hdi, get?_erase]
    split_ifs with heq
    · subst heq
      unfold At at ho
      rw [hf] at ho
      refine ⟨?_, nofun, nofun, fun tgt => ?_, fun hex => ho.covered ?_⟩
      · rintro _ ⟨⟩
        exact ⟨hn, hh, fun _ => ⟨rfl, rfl⟩⟩
      · split_ifs with hbo
        · exact iff_of_true (mem_append_right _ mem_cons_self) ⟨_, rfl, hbo.2.symm, hbo.1⟩
        rw [ho.direct]
        refine iff_of_false nofun ?_
        rintro ⟨_, ⟨⟩, ht, hr⟩
        exact hbo ⟨hr, ht.symm⟩
      · rw [expects_handleEstablishedConnection hex, Bool.true_or]
    · refine { ho.mono fun hlt => hlt.trans_le hg with direct := fun tgt => ?_ }
      rw [← ho.direct]
      split_ifs
      · rw [mem_append, mem_singleton, or_iff_left heq]
      · exact Iff.rfl
  · rw [hdi]
    split_ifs with hbo
    · rw [hbo.2]
      exact nodup_append.2 ⟨hwir.nodup peer, nodup_singleton _, by
        rintro _ ha _ hb rfl
        rw [mem_singleton.1 hb] at ha
        exact hne ha⟩
    · exact hwir.nodup tgt

theorem Wired.closed (hwir : system.Wired) (hlink : system.links.get? connection = some link)
    (hc : system.behaviour.onConnectionClosed link.peer connection link.endpoint = .ok behaviour) :
    Wired { system with behaviour, links := system.links.erase connection, listeners } := by
  have hnot : system.behaviour.pendingHandlerCommands.get? connection = none := by
    cases hp : system.behaviour.pendingHandlerCommands.get? connection with
    | none => rfl
    | some command =>
      obtain ⟨peer, hpe⟩ := isSome_iff_exists.1 (hwir.pending connection command hp)
      cases hlink.symm.trans (hwir.dialing connection peer hpe).2
  obtain ⟨hp, he, hd⟩ : behaviour.pendingHandlerCommands = system.behaviour.pendingHandlerCommands ∧
      (∀ other, other ≠ connection →
        behaviour.reservationAddresses.get? other = system.behaviour.reservationAddresses.get? other) ∧
      ∀ peer, behaviour.connectionsOf peer = (system.behaviour.connectionsOf peer).erase connection := by
    rcases onConnectionClosed_cases hc with ⟨hr, rfl⟩ | ⟨conns, hr, hpe, rfl⟩
    · refine ⟨rfl, fun _ _ => rfl, fun peer => (erase_of_not_mem fun hmem => ?_).symm⟩
      obtain ⟨known, hk, -, hd⟩ := (hwir.direct peer connection).1 hmem
      cases hlink.symm.trans hk
      rw [hr] at hd
      cases hd
    · obtain ⟨_, hdr, -⟩ := dropReservation_eq (system.behaviour.forgetConnection link.peer connection conns) connection
      rw [hdr]
      refine ⟨rfl, fun other ho => get?_erase_of_ne ho, fun peer => ?_⟩
      refine (connectionsOf_forgetConnection hpe connection peer).trans ?_
      split_ifs with hs
      · rfl
      refine (erase_of_not_mem fun hmem => ?_).symm
      obtain ⟨known, hk, ho, -⟩ := (hwir.direct peer connection).1 hmem
      cases hlink.symm.trans hk
      exact hs ho.symm
  refine wired_of_at (fun other => ?_) fun peer => ?_
  · have ho := hwir.at other
    unfold At
    dsimp only
    simp only [hp, hd, get?_erase, (hwir.nodup _).mem_erase_iff]
    split_ifs with heq
    · subst heq
      rw [hnot]
      refine ⟨nofun, fun peer hpe => ⟨(ho.dialing peer hpe).1, rfl⟩, nofun, fun _ => ?_, nofun⟩
      exact iff_of_false (fun h => h.1 rfl) nofun
    · rw [he other heq]
      exact { ho with direct := fun peer => (and_iff_right heq).trans (ho.direct peer) }
  · rw [hd]
    exact (hwir.nodup peer).erase connection

theorem Wired.dialFailed (hwir : system.Wired) (hd : system.dialing.get? connection = some peer) :
    Wired { system with
      behaviour := system.behaviour.onDialFailure connection
      dialing := system.dialing.erase connection
      listeners } := by
  refine wired_of_at (fun other => ?_) hwir.nodup
  have ho := hwir.at other
  unfold At onDialFailure
  dsimp only
  simp only [get?_erase]
  split_ifs with heq
  · subst heq
    unfold At at ho
    rw [(hwir.dialing other peer hd).2] at ho ⊢
    exact ⟨nofun, nofun, nofun, ho.direct, nofun⟩
  · exact ho

/-! ### Which steps are in order -/

/-- The last listener of a connection closes only when no reservation can be reported there any more, and the request
of a listener is taken up while it is open, on a connection without a confirmed or another address. -/
def orderly (system : System Peer) : Input Peer → Bool
  | .closeListener listener =>
    (system.behaviour.listenerIdToConnectionId.get? listener).all fun connection =>
      ((system.behaviour.listenerIdToConnectionId.erase listener).entries.any fun entry => entry.2 = connection) ||
        !system.expecting connection
  | .pollBehaviour =>
    system.takesUp.all fun (listener, connection, addr) =>
      (system.listeners.get? listener).isSome &&
        (system.behaviour.reservationAddresses.get? connection).all fun entry => entry = (addr, .pending)
  | _ => true

theorem Wired.closeListener (hwir : system.Wired) (ho : system.orderly (.closeListener listener)) :
    Wired { system with behaviour := system.behaviour.onListenerClosed listener, listeners } := by
  rcases system.behaviour.onListenerClosed_cases listener with
    ⟨-, hs⟩ | ⟨connection, hc, ⟨-, hk⟩ | ⟨hl, hd⟩⟩
  · rw [hs]
    exact hwir.frame fun _ _ => id
  · rw [hk]
    exact hwir.frame fun _ _ => id
  obtain ⟨_, heq, -⟩ := dropReservation_eq { system.behaviour with
    listenerIdToConnectionId := system.behaviour.listenerIdToConnectionId.erase listener } connection
  rw [hd, heq]
  refine hwir.frame fun other he hen => ?_
  rw [get?_erase, if_neg]
  · exact hen
  · rintro rfl
    rw [orderly, hc, all_some, hl, he] at ho
    cases ho

theorem Wired.deliver {ev : HandlerEvent Peer} {rest : List (HandlerEvent Peer)}
    (hwir : system.Wired) (hlink : system.links.get? connection = some link)
    (he : link.toBehaviour = ev :: rest)
    (hh : system.behaviour.onConnectionHandlerEvent link.peer connection ev = .ok behaviour) :
    ({ system with behaviour }.setLink connection { link with toBehaviour := rest }).Wired := by
  have hf : Wired { system with behaviour } := by
    obtain ⟨_, rfl | ⟨_, -, rfl⟩⟩ := onConnectionHandlerEvent_cases hh
    · exact hwir.frame fun _ _ => id
    · exact hwir.frame fun other _ hen => isSome_get?_insert.2 (.inr hen)
  refine hf.setLink hlink ⟨rfl, rfl, rfl⟩ ?_ ?_
  · intro hn
    have hi := (hwir.idle connection link hlink hn).2
    rw [he] at hi
    cases hi
  · intro hex
    left
    simp only [Link.expecting, or_eq_true] at hex ⊢
    rw [he, any_cons, or_eq_true]
    exact hex.imp_left .inr

variable {msgs : List (TransportToBehaviourMsg Peer)} {addr : Multiaddr Peer}

theorem Wired.takeUp (hwir : system.Wired) : (system.takeUp msgs listener connection addr).Wired :=
  hwir.frame fun _ _ he => isSome_get?_insert.2 (.inr he)

theorem isSome_takeUp :
    ((system.takeUp msgs listener connection addr).behaviour.reservationAddresses.get? connection).isSome :=
  isSome_get?_insert.2 (.inl rfl)

/-- What waits in the queue of the behaviour are reports to the swarm. -/
def Reports (system : System Peer) : Prop :=
  ∀ action ∈ system.behaviour.queuedActions,
    (∃ event, action = .generateEvent event) ∨ (∃ addr, action = .externalAddrConfirmed addr) ∨
      ∃ addr, action = .externalAddrExpired addr

theorem perform_of_report {act : Action Peer}
    (hr : (∃ ev, act = .generateEvent ev) ∨ (∃ addr, act = .externalAddrConfirmed addr) ∨
      ∃ addr, act = .externalAddrExpired addr) (system : System Peer) : system.perform act = system := by
  rcases hr with ⟨ev, rfl⟩ | ⟨addr, rfl⟩ | ⟨addr, rfl⟩ <;> rfl

theorem Wired.step {inp : Input Peer} {acts : List (Action Peer)} {after : System Peer} (hwir : system.Wired)
    (hr : system.Reports) (ho : system.orderly inp) (hstep : SystemStep system inp acts after) :
    after.Wired := by
  cases hstep with
  | same => exact hwir
  | listenOn relay relayAddr | dialThrough request relayAddr relay dst =>
    exact hwir.frame fun _ _ => id
  | closeListener => exact hwir.closeListener ho
  | establish peer =>
    refine hwir.addConnection hwir.links_nextConnection ?_ (Nat.lt_succ_self _) (Nat.le_succ _)
    intro other
    split_ifs with heq
    · rw [heq]
      refine eq_none_iff_forall_ne_some.2 fun peer hd => ?_
      exact absurd (hwir.dialing _ peer hd).1 (Nat.lt_irrefl _)
    · rfl
  | establishDialed address hd =>
    obtain ⟨hlt, hf⟩ := hwir.dialing _ _ hd
    exact hwir.addConnection hf (fun other => get?_erase _ _ _) hlt le_rfl
  | dialFailed hd => exact hwir.dialFailed hd
  | link hlink hstep => exact hwir.linkStep hlink hstep
  | closed hlink hde hdl hc => exact hwir.closed hlink hc
  | deliver hlink he hh => exact hwir.deliver hlink he hh
  | act ha =>
    rw [perform_of_report (hr _ (ha ▸ mem_cons_self))]
    exact hwir.frame fun _ _ => id
  | reserve ha hm hre => exact hwir.takeUp.notify (mem_of_relayConnection? hre) fun _ => isSome_takeUp
  | reserveLater => exact hwir.takeUp.dial fun _ => isSome_takeUp
  | circuit ha hm hre =>
    refine Wired.notify ?_ (mem_of_relayConnection? hre) nofun
    exact hwir.frame fun _ _ => id
  | circuitLater =>
    refine Wired.dial ?_ nofun
    exact hwir.frame fun _ _ => id

theorem exists_withLink {act : Link Peer → Except Panic (System Peer)}
    (ha : ∀ link, system.links.get? connection = some link → ∃ after, act link = .ok after) :
    ∃ acts after, silently (system.withLink connection act) = .ok (acts, after) := by
  unfold withLink
  split
  · exact ⟨_, _, rfl⟩
  · next link hlink =>
    obtain ⟨_, hok⟩ := ha link hlink
    rw [hok]
    exact ⟨_, _, rfl⟩

theorem exists_update {act : Link Peer → Except Panic (Link Peer)}
    (ha : ∀ link, system.links.get? connection = some link → ∃ after, act link = .ok after) :
    ∃ acts after, silently (system.update connection act) = .ok (acts, after) := by
  refine exists_withLink fun link hlink => ?_
  obtain ⟨_, hok⟩ := ha link hlink
  rw [hok]
  exact ⟨_, rfl⟩

theorem Wired.exists_onConnectionClosed (hwir : system.Wired) (hlink : system.links.get? connection = some link) :
    ∃ behaviour, system.behaviour.onConnectionClosed link.peer connection link.endpoint = .ok behaviour := by
  unfold onConnectionClosed
  split_ifs with hr
  · exact ⟨_, rfl⟩
  have hmem := (hwir.direct link.peer connection).2 ⟨link, hlink, rfl, eq_false_iff.2 hr⟩
  unfold connectionsOf at hmem
  cases hp : system.behaviour.directlyConnectedPeers.get? link.peer with
  | none =>
    rw [hp] at hmem
    cases hmem
  | some conns =>
    rw [hp] at hmem
    dsimp only
    rw [if_pos (show connection ∈ conns from hmem)]
    exact ⟨_, rfl⟩

theorem Wired.exists_step (hwir : system.Wired) (inp : Input Peer) :
    ∃ acts after, system.step inp = .ok (acts, after) := by
  cases inp with
  | closed =>
    refine exists_withLink fun link hlink => ?_
    unfold System.closed
    split_ifs
    · obtain ⟨behaviour, hc⟩ := hwir.exists_onConnectionClosed hlink
      rw [hc]
      exact ⟨_, rfl⟩
    · exact ⟨_, rfl⟩
  | deliver connection =>
    refine exists_withLink fun link hlink => ?_
    unfold System.deliver
    split
    · exact ⟨_, rfl⟩
    · next ev rest he =>
      have hen : ev.isAccepted →
          (system.behaviour.reservationAddresses.get? connection).isSome := by
        intro ha
        refine hwir.covered connection ?_
        rw [expecting, hlink, any_some, Link.expecting, he, any_cons, ha, Bool.true_or, Bool.true_or, Bool.or_true]
      obtain ⟨behaviour, hh⟩ := exists_onConnectionHandlerEvent hen link.peer
      rw [hh]
      exact ⟨_, rfl⟩
  | command connection =>
    refine exists_update fun link hlink => ?_
    unfold Link.command
    split
    · exact ⟨_, rfl⟩
    · next hco hn =>
      have hi := (hwir.idle connection link hlink hn).1
      rw [hco] at hi
      cases hi
    · exact ⟨_, rfl⟩
  | disconnect connection | inboundStream connection | pollHandler connection turns =>
    exact exists_update fun _ _ => ⟨_, rfl⟩
  | _ => exact ⟨_, _, rfl⟩

end System
end RustLibp2p.Relay.Client
