import RustLibp2p.RelayReservations

/-! Which connection of the destination a relay server asks to take a circuit. The behaviour looks at the first one
that its hash map gives, whether or not it holds a reservation. -/

namespace RustLibp2p.Relay

/-- An order of iteration in which an entry comes first, if it is there. -/
def IterOrder.startingWith (entry : ConnectionId × Reservation) : IterOrder where
  order entries := if entry ∈ entries then entry :: entries.erase entry else entries
  perm entries := by
    split_ifs with hmem
    · exact (List.perm_cons_erase hmem).symm
    · exact .refl _

variable {Peer L : Type} [LinearOrder Peer]

namespace Behaviour

def HasReservation (behaviour : Behaviour Peer L) (peer : Peer) : Prop :=
  ∃ connection, behaviour.reservation? peer connection = some .active

/-- The request is forwarded to a connection with a reservation if the destination has one, and it is denied for want
of a reservation only if there is none. -/
structure AnswersRightly (behaviour after : Behaviour Peer L) (source : Peer) (connection : ConnectionId)
    (req : CircuitReq Peer) : Prop where
  forwarded : behaviour.HasReservation req.dst → ∃ dstConnection,
    behaviour.reservation? req.dst dstConnection = some .active ∧
    after.circuits = behaviour.circuits.insert (circuitOf source connection req.dst dstConnection) ∧
    after.queuedActions = behaviour.queuedActions ++ [.notifyHandler source dstConnection
      (.negotiateOutboundConnect behaviour.circuits.nextId req source connection)]
  denied : after.queuedActions = behaviour.queuedActions ++
      [.notifyHandler source connection (.denyCircuitReq none req .noReservation)] →
    ¬ behaviour.HasReservation req.dst

variable {behaviour after : Behaviour Peer L} {source : Peer} {connection : ConnectionId} {req : CircuitReq Peer}
  {endpoint : ConnectedPoint Peer} {now : Nat} {iter : IterOrder}

theorem forwards_admitted (hd : endpoint.isRelayed = false)
    (ha : (behaviour.admitCircuit source endpoint now).1) (iter : IterOrder) :
    ∃ limiters, behaviour.onConnectionHandlerEvent source connection now iter (.circuitReqReceived req endpoint) =
      .ok ((behaviour.withLimiters behaviour.reservationRateLimiters limiters).forwardCircuit source connection req
        iter) := by
  obtain ⟨limiters, haf, -⟩ := behaviour.admitCircuit_cases source endpoint now
  refine ⟨limiters, ?_⟩
  unfold onConnectionHandlerEvent onCircuitReqReceived
  dsimp only
  rw [hd, if_neg Bool.false_ne_true, ha, if_pos rfl, haf]

variable {dstConnection : ConnectionId}

theorem answersRightly_of_first
    (hf : (iter.order (behaviour.connectionsOf req.dst).entries).head? = some (dstConnection, .active)) :
    behaviour.AnswersRightly (behaviour.forwardCircuit source connection req iter) source connection req := by
  have hh : behaviour.reservation? req.dst dstConnection = some .active := mem_of_order_head? hf
  unfold forwardCircuit
  rw [hf]
  refine ⟨fun _ => ⟨dstConnection, hh, rfl, rfl⟩, fun hd => ?_⟩
  have hs := List.append_cancel_left hd
  cases hs

theorem answersRightly_of_none (hn : ¬ behaviour.HasReservation req.dst) :
    behaviour.AnswersRightly (behaviour.forwardCircuit source connection req iter) source connection req :=
  ⟨fun hh => absurd hh hn, fun _ => hn⟩

def FullyReserved (behaviour : Behaviour Peer L) (peer : Peer) : Prop :=
  ∀ connection reservation, behaviour.reservation? peer connection = some reservation → reservation = .active

theorem answersRightly_of_fullyReserved (hf : behaviour.FullyReserved req.dst) :
    behaviour.AnswersRightly (behaviour.forwardCircuit source connection req iter) source connection req := by
  cases hfi : (iter.order (behaviour.connectionsOf req.dst).entries).head? with
  | none =>
    refine answersRightly_of_none ?_
    rintro ⟨dstConnection, hh⟩
    have hmem := (iter.perm _).mem_iff.2 (OrdMap.get?_eq_some_iff.1 hh)
    rw [List.head?_eq_none_iff.1 hfi] at hmem
    cases hmem
  | some e =>
    obtain ⟨dstConnection, resv⟩ := e
    cases hf dstConnection resv (mem_of_order_head? hfi)
    exact answersRightly_of_first hfi

/-- A connection without a reservation may be the first one, and then the others are not looked at. -/
theorem not_answersRightly (hh : behaviour.HasReservation req.dst)
    (hf : behaviour.reservation? req.dst dstConnection = some .none) : ¬ behaviour.AnswersRightly
      (behaviour.forwardCircuit source connection req (.startingWith (dstConnection, .none))) source connection req :=
        by
  intro hr
  refine hr.denied ?_ hh
  have hmem : (dstConnection, Reservation.none) ∈ (behaviour.connectionsOf req.dst).entries :=
    OrdMap.get?_eq_some_iff.1 hf
  have hfi : (IterOrder.startingWith (dstConnection, .none)).order (behaviour.connectionsOf req.dst).entries =
      (dstConnection, .none) :: (behaviour.connectionsOf req.dst).entries.erase (dstConnection, .none) := if_pos hmem
  rw [forwardCircuit, hfi]
  rfl

theorem answersRightly_withLimiters (limiters limiters' : List L) :
    (behaviour.withLimiters limiters limiters').AnswersRightly after source connection req ↔
      behaviour.AnswersRightly after source connection req :=
  ⟨fun hr => { hr with }, fun hr => { hr with }⟩

/-- A circuit request within the limits is answered rightly in every order of iteration if and only if the connections
of the destination all hold a reservation or none of them does. -/
theorem answersRightly_iff (behaviour : Behaviour Peer L) (source : Peer) (connection : ConnectionId)
    (req : CircuitReq Peer) (endpoint : ConnectedPoint Peer) (now : Nat) (hdirect : endpoint.isRelayed = false)
    (hadmitted : (behaviour.admitCircuit source endpoint now).1 = true) :
    (∀ iter, ∃ after, behaviour.onConnectionHandlerEvent source connection now iter (.circuitReqReceived req endpoint) =
        .ok after ∧ behaviour.AnswersRightly after source connection req) ↔
      (behaviour.FullyReserved req.dst ∨ ¬ behaviour.HasReservation req.dst) := by
  constructor
  · intro hr
    by_contra hm
    obtain ⟨hf, hh⟩ := not_or.1 hm
    rw [not_not] at hh
    simp only [FullyReserved, not_forall] at hf
    obtain ⟨dstConnection, resv, hfr, hi⟩ := hf
    cases resv with
    | active => exact hi rfl
    | none =>
      obtain ⟨_, hok, ha⟩ := hr (.startingWith (dstConnection, .none))
      obtain ⟨limiters, hfo⟩ := forwards_admitted hdirect hadmitted (.startingWith (dstConnection, .none))
      cases hok.symm.trans hfo
      have hl : (behaviour.withLimiters behaviour.reservationRateLimiters limiters).HasReservation req.dst :=
        hh
      exact not_answersRightly hl hfr ((answersRightly_withLimiters _ _).2 ha)
  · intro hc iter
    obtain ⟨limiters, hfo⟩ := forwards_admitted hdirect hadmitted iter
    refine ⟨_, hfo, (answersRightly_withLimiters behaviour.reservationRateLimiters limiters).1 ?_⟩
    rcases hc with hf | hn
    · exact answersRightly_of_fullyReserved hf
    · exact answersRightly_of_none hn

end Behaviour

namespace System

/-- What is asked of a step in which the behaviour is given a circuit request within the limits, of a peer that is
connected directly. -/
def OnCircuitReq (holds : Behaviour Peer L → Peer → ConnectionId → CircuitReq Peer → ConnectedPoint Peer → Nat → Prop)
    (system : System Peer L) : Input Peer → Prop
  | .deliver connection now _ =>
    ∀ link req endpoint rest, system.links.get? connection = some link →
      link.toBehaviour = .circuitReqReceived req endpoint :: rest → endpoint.isRelayed = false →
      (system.behaviour.admitCircuit link.peer endpoint now).1 = true →
      holds system.behaviour link.peer connection req endpoint now
  | _ => True

/-- In a run every circuit request within the limits is answered rightly, whatever the order of iteration, if and only
if it always finds that the connections of the destination all hold a reservation or that none of them does. -/
theorem run_answersRightly_iff (start : System Peer L) (inputs : List (Input Peer)) :
    Transition.Along step (OnCircuitReq fun behaviour source connection req endpoint now => ∀ iter, ∃ after,
        behaviour.onConnectionHandlerEvent source connection now iter (.circuitReqReceived req endpoint) = .ok after ∧
        behaviour.AnswersRightly after source connection req) start inputs ↔
      Transition.Along step (OnCircuitReq fun behaviour _ _ req _ _ =>
        behaviour.FullyReserved req.dst ∨ ¬ behaviour.HasReservation req.dst) start inputs := by
  refine Transition.along_congr fun system input => ?_
  cases input with
  | deliver connection now =>
    unfold OnCircuitReq
    refine forall₄_congr fun link req endpoint rest => forall₄_congr fun _ _ hdirect hadmitted => ?_
    exact Behaviour.answersRightly_iff _ _ _ req endpoint now hdirect hadmitted
  | establish | disconnect | closed | pollBehaviour | command | inboundStream | outboundStream | pollHandler => rfl

def connectInputs (connection : ConnectionId) (dst : Nat) : List (Input Nat) :=
  [.inboundStream connection,
    .pollHandler connection { (TaskAnswers.idle : TaskAnswers Nat) with inbound := [.connect ⟨dst⟩] },
    .deliver connection 0 .stored]

/-- Peer 1 has a reservation on its second connection. A circuit to it is denied for want of a reservation. -/
theorem denied_despite_reservation : ∃ events last, Transition.run step unlimited
      (.establish 1 (.listener [] []) :: .establish 1 (.listener [] []) :: .establish 2 (.listener [] []) ::
        reserveInputs 1 ++ acceptInputs 1 ++ connectInputs 2 1) = .ok (events, last) ∧
      last.behaviour.reservation? 1 1 = some .active ∧
      last.behaviour.queuedActions = [.notifyHandler 2 2 (.denyCircuitReq none ⟨1⟩ .noReservation)] :=
  ⟨_, _, rfl, rfl, rfl⟩

end System

/-! The limits of a relay server: how many reservations and circuits there are, of one peer and in all. A request is
checked against the numbers when it arrives, and later events change them. -/

open OrdMap Transition List CircuitsTracker

variable {rest : List (HandlerEvent Peer)} {event : HandlerEvent Peer}

namespace Behaviour

section

variable (connections : OrdMap ConnectionId Reservation) (connection : ConnectionId)
include connections connection

theorem activeCount_erase_le : activeCount (connections.erase connection) ≤ activeCount connections :=
  filter_sublist.countP_le

theorem activeCount_insert (resv : Reservation) : activeCount (connections.insert connection resv) =
      activeCount (connections.erase connection) + if resv.isActive then 1 else 0 :=
  connections.countP_insert connection resv _

theorem activeCount_insert_le : activeCount (connections.insert connection .active) ≤ activeCount connections + 1 := by
  rw [activeCount_insert]
  exact Nat.add_le_add_right (activeCount_erase_le connections connection) 1

theorem activeCount_insert_none_le : activeCount (connections.insert connection .none) ≤ activeCount connections := by
  rw [activeCount_insert]
  exact activeCount_erase_le connections connection

end

def reservationsBut (behaviour : Behaviour Peer L) (peer : Peer) : Nat :=
  ((behaviour.connections.erase peer).entries.map fun entry => activeCount entry.2).sum

theorem reservationsTotal_eq (behaviour : Behaviour Peer L) (peer : Peer) :
    behaviour.reservationsTotal = behaviour.reservationsOf peer + behaviour.reservationsBut peer := by
  unfold reservationsTotal reservationsOf reservationsBut connectionsOf
  cases hp : behaviour.connections.get? peer with
  | none =>
    rw [erase_of_get?_none hp]
    exact (Nat.zero_add _).symm
  | some =>
    rw [((perm_erase hp).map _).sum_nat]
    rfl

/-- The behaviour after a change of what is known of one peer. -/
structure ChangesPeer (behaviour after : Behaviour Peer L) (peer : Peer) (known : OrdMap ConnectionId Reservation) :
    Prop where
  config : after.config = behaviour.config
  circuits : after.circuits = behaviour.circuits
  ofPeer : after.reservationsOf peer = activeCount known
  ofOthers : ∀ other, other ≠ peer → after.reservationsOf other = behaviour.reservationsOf other
  but : after.reservationsBut peer = behaviour.reservationsBut peer

section

variable (behaviour : Behaviour Peer L) (peer : Peer) (connection : ConnectionId)

theorem changesPeer_setReservation
    (resv : Reservation) : behaviour.ChangesPeer (behaviour.setReservation peer connection resv) peer
      ((behaviour.connectionsOf peer).insert connection resv) where
  config := rfl
  circuits := rfl
  ofPeer := by
    unfold reservationsOf connectionsOf setReservation
    rw [get?_insert, if_pos rfl]
    rfl
  ofOthers := fun other ho => by
    unfold reservationsOf connectionsOf setReservation
    rw [get?_insert, if_neg ho]
  but := by
    unfold reservationsBut setReservation
    rw [erase_insert]

theorem changesPeer_dropConnection :
    behaviour.ChangesPeer (behaviour.dropConnection peer connection) peer
      ((behaviour.connectionsOf peer).erase connection) where
  config := rfl
  circuits := rfl
  ofPeer := by
    unfold reservationsOf dropConnection connectionsOf
    dsimp only
    split_ifs with he
    · rw [get?_erase, if_pos rfl, activeCount, activeCount, he]
      rfl
    · rw [get?_insert, if_pos rfl]
      rfl
  ofOthers := fun other ho => by
    unfold reservationsOf dropConnection connectionsOf
    dsimp only
    split_ifs
    · rw [get?_erase, if_neg ho]
    · rw [get?_insert, if_neg ho]
  but := by
    unfold reservationsBut dropConnection
    dsimp only
    split_ifs
    · rw [erase_of_get?_none (by rw [get?_erase, if_pos rfl])]
    · rw [erase_insert]

end

theorem countP_insertCircuit_le (tracker : CircuitsTracker Peer) (circ : Circuit Peer) (peer : Peer) :
    (tracker.insert circ).numCircuitsOfPeer peer ≤
      tracker.numCircuitsOfPeer peer + if circ.involves peer then 1 else 0 := by
  unfold numCircuitsOfPeer CircuitsTracker.insert
  rw [countP_insert]
  exact Nat.add_le_add_right filter_sublist.countP_le _

/-- What is true of the numbers of a relay server that keeps its limits. -/
structure WithinLimits (behaviour : Behaviour Peer L) : Prop where
  reservationsPerPeer : ∀ peer, behaviour.reservationsOf peer ≤ behaviour.config.maxReservationsPerPeer
  reservations : behaviour.reservationsTotal ≤ behaviour.config.maxReservations
  circuitsPerPeer : ∀ peer, behaviour.circuits.numCircuitsOfPeer peer ≤ behaviour.config.maxCircuitsPerPeer
  circuits : behaviour.circuits.len ≤ behaviour.config.maxCircuits

variable {behaviour after : Behaviour Peer L} {peer : Peer} {connection : ConnectionId}

section

variable {known : OrdMap ConnectionId Reservation} (hlimits : behaviour.WithinLimits)
  (hcha : behaviour.ChangesPeer after peer known)
include hlimits hcha

theorem WithinLimits.changesPeer (hp : activeCount known ≤ behaviour.config.maxReservationsPerPeer)
    (ht : activeCount known + behaviour.reservationsBut peer ≤ behaviour.config.maxReservations) :
    after.WithinLimits where
  reservationsPerPeer := fun other => by
    rw [hcha.config]
    by_cases ho : other = peer
    · rw [ho, hcha.ofPeer]
      exact hp
    · rw [hcha.ofOthers other ho]
      exact hlimits.reservationsPerPeer other
  reservations := by
    rw [hcha.config, after.reservationsTotal_eq peer, hcha.ofPeer, hcha.but]
    exact ht
  circuitsPerPeer := by
    rw [hcha.config, hcha.circuits]
    exact hlimits.circuitsPerPeer
  circuits := by
    rw [hcha.config, hcha.circuits]
    exact hlimits.circuits

theorem WithinLimits.noMore (hl : activeCount known ≤ behaviour.reservationsOf peer) : after.WithinLimits := by
  have hp := hlimits.reservationsPerPeer peer
  have ht := hlimits.reservations
  rw [behaviour.reservationsTotal_eq peer] at ht
  exact hlimits.changesPeer hcha (by omega) (by omega)

end

section

variable (hlimits : behaviour.WithinLimits)
include hlimits

section

variable (hcon : after.config = behaviour.config) (hcoe : after.connections = behaviour.connections)
include hcon hcoe

theorem WithinLimits.fewerCircuits
    (hp : ∀ peer, after.circuits.numCircuitsOfPeer peer ≤ behaviour.circuits.numCircuitsOfPeer peer)
    (hlen : after.circuits.len ≤ behaviour.circuits.len) : after.WithinLimits where
  reservationsPerPeer := fun peer => by
    rw [hcon, reservationsOf, connectionsOf, hcoe]
    exact hlimits.reservationsPerPeer peer
  reservations := by
    rw [hcon, reservationsTotal, hcoe]
    exact hlimits.reservations
  circuitsPerPeer := fun peer => by
    rw [hcon]
    exact (hp peer).trans (hlimits.circuitsPerPeer peer)
  circuits := by
    rw [hcon]
    exact hlen.trans hlimits.circuits

theorem WithinLimits.same (hc : after.circuits = behaviour.circuits) : after.WithinLimits :=
  hlimits.fewerCircuits hcon hcoe (fun _ => hc ▸ le_rfl) (hc ▸ le_rfl)

end

theorem WithinLimits.renewed (hh : behaviour.holds peer connection) :
    (behaviour.setReservation peer connection .active).WithinLimits := by
  have hhe : (behaviour.connectionsOf peer).get? connection = some .active := of_decide_eq_true hh
  refine hlimits.noMore (behaviour.changesPeer_setReservation peer connection .active) ?_
  rw [insert_of_get? hhe]
  exact le_rfl

theorem WithinLimits.granted (hp : behaviour.reservationsOf peer < behaviour.config.maxReservationsPerPeer)
    (ht : behaviour.reservationsTotal < behaviour.config.maxReservations) :
    (behaviour.setReservation peer connection .active).WithinLimits := by
  have ho := activeCount_insert_le (behaviour.connectionsOf peer) connection
  rw [behaviour.reservationsTotal_eq peer] at ht
  unfold reservationsOf at hp ht
  exact hlimits.changesPeer (behaviour.changesPeer_setReservation peer connection .active) (by omega) (by omega)

theorem WithinLimits.dropped : (behaviour.dropConnection peer connection).WithinLimits :=
  hlimits.noMore (behaviour.changesPeer_dropConnection peer connection) (activeCount_erase_le _ _)

theorem WithinLimits.inserted {circ : Circuit Peer}
    (hp : ∀ peer, circ.involves peer →
      behaviour.circuits.numCircuitsOfPeer peer < behaviour.config.maxCircuitsPerPeer)
    (ht : behaviour.circuits.len < behaviour.config.maxCircuits) :
    (behaviour.insertCircuit circ).WithinLimits where
  __ := hlimits
  circuitsPerPeer := fun peer => by
    refine (countP_insertCircuit_le behaviour.circuits circ peer).trans ?_
    split_ifs with hi
    · exact hp peer hi
    · exact hlimits.circuitsPerPeer peer
  circuits := (length_insert_le _ _ _).trans ht

theorem WithinLimits.removed (circ : CircuitId) : (behaviour.removeCircuit circ).WithinLimits :=
  hlimits.fewerCircuits rfl rfl (fun _ => filter_sublist.countP_le) (length_erase_le _ _)

theorem WithinLimits.removed? : ∀ circ : Option CircuitId, (behaviour.removeCircuit? circ).WithinLimits
  | none => hlimits
  | some circ => hlimits.removed circ

theorem WithinLimits.accepted (circ : CircuitId) : (behaviour.acceptedCircuit circ).WithinLimits := by
  refine hlimits.fewerCircuits rfl rfl (fun peer => le_of_eq ?_) (le_of_eq ?_)
  · unfold acceptedCircuit CircuitsTracker.accepted numCircuitsOfPeer adjust
    rw [countP_map]
    refine countP_congr fun e _ => ?_
    dsimp only [Function.comp]
    split_ifs <;> rfl
  · exact length_map _

theorem WithinLimits.closed : (behaviour.onConnectionClosed peer connection).WithinLimits := by
  have hf : (behaviour.forgetConnection peer connection).WithinLimits := by
    unfold forgetConnection
    split
    · exact hlimits
    dsimp only
    split_ifs
    · exact hlimits.dropped.same rfl rfl rfl
    · exact hlimits.dropped
  exact hf.fewerCircuits rfl rfl (fun _ => filter_sublist.countP_le) (length_filter_le _ _)

end

/-- There is room for what the event asks for: a peer that asks for one more reservation does not hold as many as it
may have, and a peer takes part in fewer circuits than it may when it is to be an end of one more. -/
def roomFor (behaviour : Behaviour Peer L) (peer : Peer) (connection : ConnectionId) : HandlerEvent Peer → Bool
  | .reservationReqReceived _ renewed =>
    renewed || behaviour.holds peer connection ||
      behaviour.reservationsOf peer ≠ behaviour.config.maxReservationsPerPeer
  | .circuitReqReceived req _ =>
    behaviour.circuits.numCircuitsOfPeer peer ≠ behaviour.config.maxCircuitsPerPeer &&
      behaviour.circuits.numCircuitsOfPeer req.dst < behaviour.config.maxCircuitsPerPeer
  | _ => true

theorem WithinLimits.handles (hlimits : behaviour.WithinLimits) (hr : behaviour.roomFor peer connection event)
    (ho : Orderly (behaviour.holds peer connection) (event :: rest))
    (hh : behaviour.Handles peer connection event after) : after.WithinLimits := by
  cases hh with
  | reserved hp ht =>
    rename_i ep renewed limiters
    have hl : (behaviour.withLimiters limiters behaviour.circuitSrcRateLimiters).WithinLimits :=
      hlimits.same rfl rfl rfl
    by_cases hho : behaviour.holds peer connection
    · exact (hl.renewed hho).same rfl rfl rfl
    have hn : renewed = false := Bool.eq_false_iff.2 fun hre => hho (ho.2.1 hre)
    have hc := hp hn
    rw [roomFor, hn, Bool.eq_false_iff.2 hho, Bool.false_or, Bool.false_or, decide_eq_true_eq] at hr
    exact (hl.granted (lt_of_le_of_ne hc hr) ht).same rfl rfl rfl
  | reservationAccepted => exact (hlimits.renewed ho.1).same rfl rfl rfl
  | timedOut => exact hlimits.dropped.same rfl rfl rfl
  | forwarded hs ht hd =>
    rename_i req ep limiters dstConnection
    have hl : (behaviour.withLimiters behaviour.reservationRateLimiters limiters).WithinLimits :=
      hlimits.same rfl rfl rfl
    simp only [roomFor, Bool.and_eq_true, decide_eq_true_eq] at hr
    refine WithinLimits.same (hl.inserted ?_ ht) rfl rfl rfl
    intro _ hi
    rcases Bool.or_eq_true_iff.1 hi with hsr | he
    · cases of_decide_eq_true hsr
      exact lt_of_le_of_ne hs hr.1
    · cases of_decide_eq_true he
      exact hr.2
  | circuitAccepted => exact (hlimits.accepted _).same rfl rfl rfl
  | circuitAcceptFailed | circuitClosed => exact (hlimits.removed _).same rfl rfl rfl
  | circuitDenied | circuitDenyFailed => exact (hlimits.removed? _).same rfl rfl rfl
  | _ => exact hlimits.same rfl rfl rfl

end Behaviour

namespace System

/-- There is room for what the event asks for that the behaviour is given in this step. -/
def roomy (system : System Peer L) : Input Peer → Bool
  | .deliver connection _ _ =>
    (system.links.get? connection).all fun link =>
      link.toBehaviour.head?.all fun event => system.behaviour.roomFor link.peer connection event
  | _ => true

variable {system after : System Peer L}

theorem Sound.withinLimits_step {inp : Input Peer} {events : List (Event Peer)} (hs : system.Sound)
    (hlimits : system.behaviour.WithinLimits) (hr : system.roomy inp)
    (hst : SystemStep system inp events after) : after.behaviour.WithinLimits := by
  cases hst with
  | same | link => exact hlimits
  | establish peer =>
    exact hlimits.noMore (system.behaviour.changesPeer_setReservation peer system.nextConnection .none)
      (Behaviour.activeCount_insert_none_le _ _)
  | closed => exact hlimits.closed
  | deliver hl he hh =>
    rw [roomy, hl, Option.all_some, he, head?_cons, Option.all_some] at hr
    exact hlimits.handles hr (he ▸ (hs.keeps _ _ hl).orderly) (Behaviour.handles_of_ok hh)
  | generate => exact hlimits.same rfl rfl rfl
  | notify ha =>
    rename_i tgt cmd acts
    rcases send_cases { system with behaviour := { system.behaviour with queuedActions := acts } } tgt cmd
      with hsa | ⟨link, hl, hal, haf⟩
    · rw [hsa]
      exact hlimits.same rfl rfl rfl
    · rw [haf]
      exact hlimits.same rfl rfl rfl

/-- In every run of a relay server in which there is room for what is asked for and no reservation ends while its
renewal is on its way, all limits are kept. -/
theorem run_within_limits (localPeerId : Peer) (config : Config Peer L) (addrs : List (Multiaddr Peer))
    (limiters limiters' : List L) (inputs : List (Input Peer))
    (hallowed : Along step (fun system input => system.timely input ∧ system.roomy input)
      (new (.new localPeerId config addrs limiters limiters')) inputs) :
    ∃ events last, run step (new (.new localPeerId config addrs limiters limiters')) inputs =
      .ok (events, last) ∧ last.behaviour.WithinLimits := by
  have hs : ∀ (past : List (List (Event Peer))) (system : System Peer L) input,
      system.Sound ∧ system.behaviour.WithinLimits → system.timely input ∧ system.roomy input →
      ∃ events next, system.step input = .ok (events, next) ∧ next.Sound ∧ next.behaviour.WithinLimits := by
    rintro _ system input ⟨hso, hlimits⟩ ⟨ht, hr⟩
    obtain ⟨events, next, hok⟩ := hso.exists_step input
    exact ⟨events, next, hok, hso.step ht (step_cases hok), hso.withinLimits_step hlimits hr (step_cases hok)⟩
  obtain ⟨events, last, hrun, -, hlimits⟩ := run_total_along hs inputs []
    ⟨sound_new localPeerId config addrs limiters limiters',
      fun _ => Nat.zero_le _, Nat.zero_le _, fun _ => Nat.zero_le _, Nat.zero_le _⟩ hallowed
  exact ⟨events, last, hrun, hlimits⟩

/-- Peers connect, the first of them with a reservation. -/
def reservedInputs (sources : List Nat) : List (Input Nat) :=
  .establish 1 (.listener [] []) :: reserveInputs 0 ++ acceptInputs 0 ++
    sources.map fun peer => .establish peer (.listener [] [])

theorem run_within_limits_circuit :
    Along step (fun system input => system.timely input ∧ system.roomy input) unlimited
      (reservedInputs [2] ++ connectInputs 1 1) ∧
    ∃ events last, run step unlimited (reservedInputs [2] ++ connectInputs 1 1) = .ok (events, last) ∧
      last.behaviour.WithinLimits :=
  have hall : Along step (fun system input => system.timely input ∧ system.roomy input) unlimited
      (reservedInputs [2] ++ connectInputs 1 1) := by decide +kernel
  ⟨hall, run_within_limits 0 _ [] [] [] _ hall⟩

/-- One peer may have four reservations and take part in four circuits. A fifth reservation is granted all the same,
and a fifth circuit to the peer is forwarded. -/
theorem limits_exceeded : (∃ events last, run step unlimited
        (replicate 5 (.establish 1 (.listener [] [])) ++ (range 5).flatMap reserveInputs) = .ok (events, last) ∧
      last.behaviour.config.maxReservationsPerPeer = 4 ∧ last.behaviour.reservationsOf 1 = 5) ∧
    ∃ events last, run step unlimited
        (reservedInputs [2, 3, 4, 5, 6] ++ [1, 2, 3, 4, 5].flatMap fun connection => connectInputs connection 1) =
          .ok (events, last) ∧
      last.behaviour.config.maxCircuitsPerPeer = 4 ∧ last.behaviour.circuits.numCircuitsOfPeer 1 = 5 :=
  ⟨⟨_, _, rfl, rfl, rfl⟩, ⟨_, _, rfl, rfl, rfl⟩⟩

end System
end RustLibp2p.Relay
