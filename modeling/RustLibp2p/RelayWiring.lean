import RustLibp2p.RelaySystem
import Mathlib.Data.List.Perm.Basic

/-! What keeps the handlers of a relay server from panicking: a handler knows the circuits it asks the
remote for, and no message goes to a connection whose handler does nothing. -/

namespace RustLibp2p.Relay
open List OrdMap Behaviour HandlerOut Link Handler

variable {Peer L : Type}

theorem perm_of_getElem? {α : Type} {elems : List α} {idx : Nat} {elem : α} (hg : elems[idx]? = some elem) :
    (elem :: elems.eraseIdx idx).Perm elems := by
  obtain ⟨hlt, rfl⟩ := List.getElem?_eq_some_iff.1 hg
  exact getElem_cons_eraseIdx_perm hlt

theorem mem_concat {α : Type} {elems : List α} {elem last : α} (hmem : elem ∈ elems ++ [last]) :
    elem ∈ elems ∨ elem = last :=
  (mem_append.1 hmem).imp_right mem_singleton.1

def HandlerOut.isRequest : HandlerOut Peer → Bool
  | outboundSubstreamRequest => true
  | notifyBehaviour _ => false

/-- The event is about circuits that are known already. -/
def HandlerEvent.plain : HandlerEvent Peer → Bool
  | reservationReqReceived _ _ => false
  | reservationReqAccepted _ => false
  | reservationTimedOut => false
  | circuitReqReceived _ _ => false
  | _ => true

structure Handler.Ok (handler : Handler Peer) (requested : Nat) : Prop where
  endpoint : handler.endpoint.isRelayed = false
  queued : ∀ event, .notifyBehaviour event ∈ handler.queuedEvents → event.plain
  pending : handler.pendingConnectRequests.length = handler.queuedEvents.countP isRequest + requested
  distinct : handler.outboundWorkers.Nodup
  known : ∀ circuit ∈ handler.outboundWorkers, (handler.activeConnectRequests.get? circuit).isSome

namespace Handler

theorem ok_new {endpoint : ConnectedPoint Peer} (hd : endpoint.isRelayed = false) : (new endpoint).Ok 0 where
  endpoint := hd
  queued := nofun
  pending := rfl
  distinct := .nil
  known := nofun

variable {workers : List CircuitId}

theorem mem_tryPush {circ other : CircuitId} (hmem : other ∈ tryPush workers circ) :
    other = circ ∨ other ∈ workers := by
  unfold tryPush at hmem
  split_ifs at hmem
  · exact .inr hmem
  · exact (mem_concat hmem).symm.imp_right mem_of_mem_erase

theorem nodup_tryPush (hd : workers.Nodup) (circ : CircuitId) : (tryPush workers circ).Nodup := by
  unfold tryPush
  split_ifs
  · exact hd
  refine List.Nodup.append (hd.erase circ) (nodup_singleton circ) ?_
  intro _ ho hn
  rw [mem_singleton.1 hn] at ho
  exact hd.not_mem_erase ho

namespace Ok

variable {handler after : Handler Peer} {requested : Nat}

section

variable (hok : handler.Ok (requested + 1))
include hok

theorem exists_pending : ∃ connect rest, handler.pendingConnectRequests = connect :: rest ∧
      rest.length = handler.queuedEvents.countP isRequest + requested := by
  have hlen := hok.pending
  cases hp : handler.pendingConnectRequests with
  | nil =>
    rw [hp, length_nil] at hlen
    omega
  | cons connect rest =>
    rw [hp, length_cons] at hlen
    exact ⟨connect, rest, rfl, by omega⟩

theorem exists_opened : ∃ after, handler.onFullyNegotiatedOutbound = .ok after ∧ after.Ok requested := by
  obtain ⟨_, _, hp, hlen⟩ := hok.exists_pending
  simp only [onFullyNegotiatedOutbound, hp]
  refine ⟨_, rfl, hok.endpoint, hok.queued, hlen, nodup_tryPush hok.distinct _, ?_⟩
  intro circ hc
  rw [get?_insert]
  split_ifs with heq
  · rfl
  · exact hok.known circ ((mem_tryPush hc).resolve_left heq)

theorem exists_failed (err : StreamUpgradeError) :
    ∃ after, handler.onDialUpgradeError err = .ok after ∧ after.Ok requested := by
  obtain ⟨_, _, hp, _⟩ := hok.exists_pending
  simp only [onDialUpgradeError, hp]
  refine ⟨_, rfl, hok.endpoint, ?_, ?_, hok.distinct, hok.known⟩
  · intro event he
    rcases mem_concat he with ho | hn
    · exact hok.queued event ho
    · cases hn
      rfl
  · simp only [pushEvent, countP_append, countP_singleton, isRequest]
    simp only [Bool.false_eq_true, if_false]
    omega

end

section

variable (hok : handler.Ok requested)
include hok

theorem onBehaviourEvent (command : HandlerIn Peer) : (handler.onBehaviourEvent command).Ok requested := by
  cases command with
  | negotiateOutboundConnect =>
    refine { hok with queued := ?_, pending := ?_ }
    · intro event he
      rcases mem_concat he with ho | hn
      · exact hok.queued event ho
      · cases hn
    · have hlen := hok.pending
      simp only [Handler.onBehaviourEvent, pushEvent, countP_append, countP_singleton,
        isRequest, length_append, length_singleton, if_true]
      omega
  | _ => exact { hok with }

theorem withInbound (workers : Nat) : (handler.withInbound workers).Ok requested :=
  { hok with }

theorem known_eraseIdx {idx : Nat} {circuit : CircuitId}
    (hw : handler.outboundWorkers[idx]? = some circuit) : ∀ other ∈ handler.outboundWorkers.eraseIdx idx,
      ((handler.activeConnectRequests.erase circuit).get? other).isSome := by
  intro other ho
  have hne : other ≠ circuit := by
    rintro rfl
    have hd := (perm_of_getElem? hw).nodup_iff.2 hok.distinct
    exact (nodup_cons.1 hd).1 ho
  rw [get?_erase, if_neg hne]
  exact hok.known other (mem_of_mem_eraseIdx ho)

end
end Ok
end Handler

namespace Link

/-- The handler of the connection, if it has one that does something, will not panic. -/
def Ok (link : Link Peer) : Prop := ∀ handler, link.handler = some handler → handler.Ok link.requested

theorem ok_new (peer : Peer) (ep : ConnectedPoint Peer) : (new peer ep).Ok := by
  intro _ hh
  unfold new at hh
  split_ifs at hh with hr
  cases hh
  exact Handler.ok_new (Bool.eq_false_iff.2 hr)

variable {link : Link Peer} {handler : Handler Peer}

theorem ok_of_handler (hh : link.handler = some handler) (hok : handler.Ok link.requested) : link.Ok := by
  intro _ ho
  cases hh.symm.trans ho
  exact hok

variable {fires : Prop}

theorem ok_pushOut {after : Handler Peer} {event : Option (HandlerOut Peer)}
    (hok : handler.Ok link.requested) (hp : handler.PollStep fires event after) :
    ({ link with handler := some after }.pushOut event).Ok := by
  cases hp with
  | queued hq =>
    rename_i event rest
    have hpe := hok.pending
    have hr : ∀ event, .notifyBehaviour event ∈ rest → event.plain := by
      intro event he
      exact hok.queued event (hq ▸ mem_cons_of_mem _ he)
    rw [hq, countP_cons] at hpe
    cases event with
    | outboundSubstreamRequest =>
      refine ok_of_handler rfl { hok with queued := hr, pending := ?_ }
      simp only [isRequest, if_true] at hpe
      simp only [pushOut]
      omega
    | notifyBehaviour => exact ok_of_handler rfl { hok with queued := hr, pending := hpe }
  | negotiated hw hc | negotiationFailed status error hw hc =>
    exact ok_of_handler rfl { hok with
      distinct := hok.distinct.sublist (eraseIdx_sublist _ _)
      known := hok.known_eraseIdx hw }
  | _ => exact ok_of_handler rfl { hok with }

theorem Ok.step {after : Link Peer} (hok : link.Ok) (hs : LinkStep fires link after) : after.Ok := by
  cases hs with
  | same | disconnect => exact hok
  | command hc hh => exact ok_of_handler rfl ((hok _ hh).onBehaviourEvent _)
  | inbound hh workers => exact ok_of_handler rfl ((hok _ hh).withInbound workers)
  | opened hh hr ho =>
    obtain ⟨after, ha, hok'⟩ := (hr ▸ hok _ hh).exists_opened
    cases ho.symm.trans ha
    exact ok_of_handler rfl hok'
  | failed err hh hr hf =>
    obtain ⟨after, ha, hok'⟩ := (hr ▸ hok _ hh).exists_failed err
    cases hf.symm.trans ha
    exact ok_of_handler rfl hok'
  | polled hh hal hp => exact ok_pushOut ((hok _ hh).withInbound _) hp

theorem Ok.exists_outboundStream (hok : link.Ok) (hh : link.handler = some handler) (err : Option StreamUpgradeError) :
    ∃ after, link.outboundStream handler err = .ok after := by
  unfold outboundStream
  cases hr : link.requested with
  | zero => exact ⟨_, rfl⟩
  | succ =>
    have hhaO := hr ▸ hok _ hh
    cases err with
    | none =>
      obtain ⟨after, ha, -⟩ := hhaO.exists_opened
      rw [ha]
      exact ⟨_, rfl⟩
    | some err =>
      obtain ⟨after, ha, -⟩ := hhaO.exists_failed err
      dsimp only
      rw [ha]
      exact ⟨_, rfl⟩

theorem exists_running {act : Link Peer → Handler Peer → Except Panic (Link Peer)}
    (ha : ∀ handler, link.handler = some handler → ∃ changed, act link handler = .ok changed) :
    ∃ changed, link.running act = .ok changed := by
  unfold running
  split
  · next hh => exact ha _ hh
  · exact ⟨_, rfl⟩

theorem Ok.exists_pollHandler (hok : link.Ok) (hh : link.handler = some handler) (ans : TaskAnswers Peer) :
    ∃ after, link.pollHandler handler ans = .ok after := by
  obtain ⟨_, _, hp⟩ := exists_poll ans (hok _ hh).known
  unfold pollHandler
  rw [hp]
  exact ⟨_, rfl⟩

end Link

/-! ### Messages go to handlers that do something -/

/-- The connection of the source of a circuit that an event names. -/
def HandlerEvent.source? : HandlerEvent Peer → Option ConnectionId
  | outboundConnectNegotiated _ _ srcConnection _ => some srcConnection
  | outboundConnectNegotiationFailed _ _ srcConnection _ _ _ => some srcConnection
  | _ => none

def HandlerIn.source? : HandlerIn Peer → Option ConnectionId
  | negotiateOutboundConnect _ _ _ srcConnection => some srcConnection
  | _ => none

/-- The connections that a handler knows as sources of circuits. -/
structure Handler.Sources (Real : ConnectionId → Prop) (handler : Handler Peer) : Prop where
  queued : ∀ event, .notifyBehaviour event ∈ handler.queuedEvents → ∀ source ∈ event.source?, Real source
  pending : ∀ connect ∈ handler.pendingConnectRequests, Real connect.srcConnectionId
  active : ∀ circuit connect, handler.activeConnectRequests.get? circuit = some connect → Real connect.srcConnectionId

/-- All the connections that the messages and the handler of a connection name are real. -/
structure Link.Wired (Real : ConnectionId → Prop) (link : Link Peer) : Prop where
  idle : link.handler = none → link.toHandler = [] ∧ link.toBehaviour = []
  commands : ∀ command ∈ link.toHandler, ∀ source ∈ command.source?, Real source
  events : ∀ event ∈ link.toBehaviour, ∀ source ∈ event.source?, Real source
  handler : ∀ handler, link.handler = some handler → handler.Sources Real

variable {command : HandlerIn Peer}

namespace Link

variable {Real : ConnectionId → Prop} {link after : Link Peer}

theorem wired_new (peer : Peer) (ep : ConnectedPoint Peer) : (new peer ep).Wired Real := by
  refine ⟨fun _ => ⟨rfl, rfl⟩, forall_mem_nil _, forall_mem_nil _, ?_⟩
  intro _ hh
  unfold new at hh
  split_ifs at hh
  cases hh
  exact ⟨nofun, forall_mem_nil _, nofun⟩

theorem Wired.mono {Real' : ConnectionId → Prop} (hr : ∀ connection, Real connection → Real' connection)
    (hwir : link.Wired Real) : link.Wired Real' where
  __ := hwir
  commands := fun command hc source hs => hr _ (hwir.commands command hc source hs)
  events := fun event he source hs => hr _ (hwir.events event he source hs)
  handler := fun handler hh => by
    have hsor := hwir.handler handler hh
    exact ⟨fun event he source hs => hr _ (hsor.queued event he source hs),
      fun connect hco => hr _ (hsor.pending connect hco),
      fun circ connect hco => hr _ (hsor.active circ connect hco)⟩

variable {handler : Handler Peer}

section

variable {after : Handler Peer} (hsor : handler.Sources Real)
include hsor

theorem sources_onBehaviourEvent
    (hc : ∀ source ∈ command.source?, Real source) : (handler.onBehaviourEvent command).Sources Real := by
  cases command with
  | negotiateOutboundConnect circ req src srcConnection =>
    refine ⟨?_, ?_, hsor.active⟩
    · intro event he
      rcases mem_concat he with ho | hn
      · exact hsor.queued event ho
      · cases hn
    · intro connect hco
      rcases mem_concat hco with ho | rfl
      · exact hsor.pending connect ho
      · exact hc srcConnection rfl
  | _ => exact { hsor with }

theorem sources_opened (ho : handler.onFullyNegotiatedOutbound = .ok after) : after.Sources Real := by
  unfold onFullyNegotiatedOutbound at ho
  split at ho
  · cases ho
  · next connect rest hp =>
    cases ho
    have hf : Real connect.srcConnectionId := hsor.pending connect (hp ▸ mem_cons_self)
    refine ⟨hsor.queued, fun other hot => ?_, forall_insert hf hsor.active⟩
    exact hsor.pending other (hp ▸ mem_cons_of_mem _ hot)

theorem sources_failed {err : StreamUpgradeError} (hf : handler.onDialUpgradeError err = .ok after) :
    after.Sources Real := by
  unfold onDialUpgradeError at hf
  split at hf
  · cases hf
  · next connect rest hp =>
    cases hf
    have hfi : Real connect.srcConnectionId := hsor.pending connect (hp ▸ mem_cons_self)
    refine ⟨?_, fun other ho => hsor.pending other (hp ▸ mem_cons_of_mem _ ho), hsor.active⟩
    intro event he source hs
    rcases mem_concat he with hol | hn
    · exact hsor.queued event hol source hs
    · cases hn
      cases hs
      exact hfi

theorem sources_poll {out : Option (HandlerOut Peer)} (hp : handler.PollStep fires out after) :
    after.Sources Real ∧ ∀ event, out = some (.notifyBehaviour event) → ∀ source ∈ event.source?, Real source := by
  have he : ∀ circ other connect,
      (handler.activeConnectRequests.erase circ).get? other = some connect → Real connect.srcConnectionId := by
    intro circ other connect hc
    exact hsor.active other connect (get?_erase_iff.1 hc).2
  cases hp with
  | queued hq =>
    refine ⟨{ hsor with queued := fun event hev => hsor.queued event (hq ▸ mem_cons_of_mem _ hev) }, ?_⟩
    intro event hev
    cases hev
    exact hsor.queued event (hq ▸ mem_cons_self)
  | negotiated hw hc | negotiationFailed status error hw hc =>
    refine ⟨{ hsor with active := he _ }, ?_⟩
    intro event hev source hs
    cases hev
    cases hs
    exact hsor.active _ _ hc
  | idle => exact ⟨hsor, nofun⟩
  | _ =>
    refine ⟨{ hsor with }, ?_⟩
    intro event hev source hs
    cases hev
    cases hs

end

theorem wired_of_handler {link : Link Peer} (hh : link.handler = some handler)
    (hc : ∀ command ∈ link.toHandler, ∀ source ∈ command.source?, Real source)
    (he : ∀ event ∈ link.toBehaviour, ∀ source ∈ event.source?, Real source) (hsor : handler.Sources Real) :
    link.Wired Real := by
  refine ⟨fun hn => ?_, hc, he, fun other ho => ?_⟩
  · rw [hh] at hn
    cases hn
  · cases hh.symm.trans ho
    exact hsor

theorem Wired.step (hwir : link.Wired Real) (hs : LinkStep fires link after) : after.Wired Real := by
  cases hs with
  | same => exact hwir
  | disconnect => exact ⟨fun hn => ⟨rfl, (hwir.idle hn).2⟩, forall_mem_nil _, hwir.events, hwir.handler⟩
  | command hc hh =>
    refine wired_of_handler rfl ?_ hwir.events ?_
    · exact fun command hmem => hwir.commands command (hc ▸ mem_cons_of_mem _ hmem)
    · exact sources_onBehaviourEvent (hwir.handler _ hh) (hwir.commands _ (hc ▸ mem_cons_self))
  | inbound hh =>
    have hsor := hwir.handler _ hh
    exact wired_of_handler rfl hwir.commands hwir.events { hsor with }
  | opened hh hr ho =>
    exact wired_of_handler rfl hwir.commands hwir.events (sources_opened (hwir.handler _ hh) ho)
  | failed err hh hr hf =>
    exact wired_of_handler rfl hwir.commands hwir.events (sources_failed (hwir.handler _ hh) hf)
  | polled hh ha hp =>
    rename_i handler after event workers
    have hb := hwir.handler _ hh
    have hw : (handler.withInbound workers).Sources Real := { hb with }
    obtain ⟨hsor, hou⟩ := sources_poll hw hp
    cases event with
    | none => exact wired_of_handler rfl hwir.commands hwir.events hsor
    | some event =>
      cases event with
      | outboundSubstreamRequest => exact wired_of_handler rfl hwir.commands hwir.events hsor
      | notifyBehaviour =>
        refine wired_of_handler rfl hwir.commands ?_ hsor
        intro other hot
        rcases mem_concat hot with hol | rfl
        · exact hwir.events other hol
        · exact hou other rfl

theorem step_keeps (hs : LinkStep fires link after) :
    after.peer = link.peer ∧ (link.handler.isSome → after.handler.isSome) ∧ (after.alive → link.alive) := by
  cases hs with
  | same => exact ⟨rfl, id, id⟩
  | disconnect => exact ⟨rfl, id, nofun⟩
  | command hc hh | inbound hh workers | opened hh hr ho =>
    exact ⟨rfl, fun _ => rfl, id⟩
  | failed => exact ⟨rfl, fun _ => rfl, id⟩
  | polled hh ha hp =>
    rename_i event workers
    cases event with
    | none => exact ⟨rfl, fun _ => rfl, fun _ => ha⟩
    | some event => cases event <;> exact ⟨rfl, fun _ => rfl, fun _ => ha⟩

end Link

variable [LinearOrder Peer] {target : ConnectionId}

namespace Behaviour

variable {behaviour after : Behaviour Peer L} {source : Peer} {connection : ConnectionId} {event : HandlerEvent Peer}

section

variable (hhad : behaviour.Handles source connection event after)
include hhad

/-- Commands go back to the connection, to the source of a circuit that the event names or to one with a
reservation. -/
theorem Handles.actions :
    ∀ peer target command, .notifyHandler peer target command ∈ after.queuedActions →
      .notifyHandler peer target command ∈ behaviour.queuedActions ∨
      (target = connection ∨ event.source? = some target ∨ ∃ dst, behaviour.reservation? dst target = some .active) ∧
        ∀ named ∈ command.source?, named = connection := by
  intro _ _ _ hmem
  have hn : ∀ named ∈ (none : Option ConnectionId), named = connection := nofun
  cases hhad with
  | reserved hp ht | refused | circuitRefused =>
    refine (mem_concat hmem).imp_right fun hne => ?_
    cases hne
    exact ⟨.inl rfl, hn⟩
  | forwarded hs ht hd =>
    refine (mem_concat hmem).imp_right fun hne => ?_
    cases hne
    refine ⟨.inr (.inr ⟨_, hd⟩), ?_⟩
    intro named hna
    cases hna
    rfl
  | negotiated =>
    refine (mem_concat hmem).imp_right fun hne => ?_
    cases hne
    exact ⟨.inr (.inl rfl), hn⟩
  | negotiationFailed =>
    rcases mem_concat hmem with ho | hne
    · refine (mem_concat ho).imp_right fun hne => ?_
      cases hne
      exact ⟨.inr (.inl rfl), hn⟩
    · cases hne
  | circuitDenied | circuitDenyFailed =>
    rename_i circ dst _
    rcases mem_concat hmem with ho | hne
    · cases circ <;> exact .inl ho
    · cases hne
  | _ =>
    rcases mem_concat hmem with ho | hne
    · exact .inl ho
    · cases hne

theorem Handles.reservation? (peer : Peer) (other : ConnectionId) (ho : ¬ (peer = source ∧ other = connection)) :
    after.reservation? peer other = behaviour.reservation? peer other := by
  cases hhad with
  | reserved hp ht | reservationAccepted hk =>
    exact (reservation?_setReservation _ _ _ _ _ _).trans (if_neg ho)
  | timedOut => exact (reservation?_dropConnection _ _ _ _ _).trans (if_neg ho)
  | circuitDenied | circuitDenyFailed =>
    rename_i circ dst _
    cases circ <;> rfl
  | _ => rfl

end

theorem reservation?_onConnectionClosed (behaviour : Behaviour Peer L) (peer : Peer) (connection : ConnectionId)
    (peer' : Peer) (connection' : ConnectionId) :
    (behaviour.onConnectionClosed peer connection).reservation? peer' connection' =
      if peer' = peer ∧ connection' = connection then none else behaviour.reservation? peer' connection' := by
  show (behaviour.forgetConnection peer connection).reservation? peer' connection' = _
  unfold forgetConnection
  split
  · next hn =>
    split_ifs with hs
    · rw [hs.1, reservation?, connectionsOf, hn]
      rfl
    · rfl
  · dsimp only
    split
    all_goals exact reservation?_dropConnection _ _ _ _ _

theorem notify_of_onConnectionClosed {peer' : Peer} {peer : Peer}
    (hmem : .notifyHandler peer' target command ∈ (behaviour.onConnectionClosed peer connection).queuedActions) :
    .notifyHandler peer' target command ∈ behaviour.queuedActions := by
  rcases mem_append.1 hmem with hmem | hmem
  · unfold forgetConnection at hmem
    split at hmem
    · exact hmem
    dsimp only at hmem
    split_ifs at hmem
    · rcases mem_concat hmem with ho | hn
      · exact ho
      · cases hn
    · exact hmem
  · obtain ⟨_, -, heq⟩ := mem_map.1 hmem
    cases heq

end Behaviour

namespace System

/-- The connection is not a new one, and if it is there, its handler does something. -/
def Real (system : System Peer L) (connection : ConnectionId) : Prop :=
  connection < system.nextConnection ∧ ∀ link, system.links.get? connection = some link → link.handler.isSome

/-- No message is for a connection whose handler does nothing, and no handler will panic. -/
structure Wired (system : System Peer L) : Prop where
  known : ∀ connection link, system.links.get? connection = some link → connection < system.nextConnection
  ok : ∀ connection link, system.links.get? connection = some link → link.Ok
  wired : ∀ connection link, system.links.get? connection = some link → link.Wired system.Real
  actions : ∀ peer connection command, .notifyHandler peer connection command ∈ system.behaviour.queuedActions →
    system.Real connection ∧ ∀ source ∈ command.source?, system.Real source
  reserved : ∀ peer connection, system.behaviour.reservation? peer connection = some .active → system.Real connection

variable {system after : System Peer L} {connection : ConnectionId} {link changed : Link Peer}

theorem real_setLink (hl : system.links.get? connection = some link) (hs : link.handler.isSome → changed.handler.isSome)
    (hr : system.Real target) : (system.setLink connection changed).Real target := by
  refine ⟨hr.1, fun other ho => ?_⟩
  rcases get?_insert_iff.1 ho with ⟨rfl, rfl⟩ | ⟨-, hol⟩
  · exact hs (hr.2 link hl)
  · exact hr.2 other hol

theorem send_cases (system : System Peer L) (connection : ConnectionId) (command : HandlerIn Peer) :
    system.send connection command = system ∨ ∃ link, system.links.get? connection = some link ∧ link.alive ∧
      system.send connection command =
        system.setLink connection { link with toHandler := link.toHandler ++ [command] } := by
  unfold send
  split
  · exact .inl rfl
  · next link hl =>
    split_ifs with ha
    · exact .inr ⟨link, hl, ha, rfl⟩
    · exact .inl rfl

variable {input : Input Peer} {events : List (Event Peer)}

theorem SystemStep.real (hs : SystemStep system input events after) (hr : system.Real connection) :
    after.Real connection := by
  cases hs with
  | same | generate => exact hr
  | establish =>
    refine ⟨Nat.lt_succ_of_lt hr.1, fun link hl => ?_⟩
    unfold System.establish at hl
    rw [get?_insert, if_neg (Nat.ne_of_lt hr.1)] at hl
    exact hr.2 link hl
  | link hl hs => exact real_setLink hl (step_keeps hs).2.1 hr
  | closed =>
    refine ⟨hr.1, fun link ho => ?_⟩
    exact hr.2 link (get?_erase_iff.1 ho).2
  | deliver hl => exact real_setLink hl id hr
  | notify ha =>
    rename_i target command acts
    rcases send_cases { system with behaviour := { system.behaviour with queuedActions := acts } } target command
      with hsa | ⟨link, hl, -, hse⟩
    · rw [hsa]
      exact hr
    · rw [hse]
      exact real_setLink hl id hr

theorem wired_new (behaviour : Behaviour Peer L) (he : behaviour.queuedActions = [])
    (hn : ∀ peer connection, behaviour.reservation? peer connection = none) : (new behaviour).Wired where
  known := nofun
  ok := nofun
  wired := nofun
  actions := fun peer connection command hmem => by
    rw [show (new behaviour).behaviour.queuedActions = [] from he] at hmem
    cases hmem
  reserved := fun peer connection ha => by
    rw [show (new behaviour).behaviour.reservation? peer connection = none from hn peer connection] at ha
    cases ha

theorem Wired.real_of_event (hwir : system.Wired)
    (hl : system.links.get? connection = some link) (he : link.toBehaviour ≠ []) : system.Real connection := by
  refine ⟨hwir.known connection link hl, fun other ho => ?_⟩
  cases hl.symm.trans ho
  cases hh : link.handler with
  | some => rfl
  | none => exact absurd ((hwir.wired connection link hl).idle hh).2 he

variable {behaviour : Behaviour Peer L}

section

variable (hwir : system.Wired)
include hwir

/-- What was real stays so, and what is new in the system names only what is real. -/
theorem Wired.follow (hn : system.nextConnection ≤ after.nextConnection)
    (hr : ∀ target, system.Real target → after.Real target)
    (hl : ∀ other link, after.links.get? other = some link → system.links.get? other = some link ∨
      other < after.nextConnection ∧ link.Ok ∧ link.Wired after.Real)
    (ha : ∀ peer target command, .notifyHandler peer target command ∈ after.behaviour.queuedActions →
      system.Real target ∧ ∀ source ∈ command.source?, system.Real source)
    (hre : ∀ peer target, after.behaviour.reservation? peer target = some .active → system.Real target) :
    after.Wired where
  known := fun other link ho =>
    (hl other link ho).elim (fun hol => (hwir.known other link hol).trans_le hn) And.left
  ok := fun other link ho => (hl other link ho).elim (hwir.ok other link) fun hne => hne.2.1
  wired := fun other link ho =>
    (hl other link ho).elim (fun hol => (hwir.wired other link hol).mono hr) fun hne => hne.2.2
  actions := fun peer target command hmem => by
    obtain ⟨ht, hsor⟩ := ha peer target command hmem
    exact ⟨hr target ht, fun source hs => hr source (hsor source hs)⟩
  reserved := fun peer target hac => hr target (hre peer target hac)

theorem Wired.setLink (hl : system.links.get? connection = some link)
    (hs : link.handler.isSome → changed.handler.isSome) (hok : changed.Ok) (hc : changed.Wired system.Real)
    (ha : ∀ peer target command, .notifyHandler peer target command ∈ behaviour.queuedActions →
      system.Real target ∧ ∀ source ∈ command.source?, system.Real source)
    (hr : ∀ peer target, behaviour.reservation? peer target = some .active → system.Real target) :
    ({ system with behaviour }.setLink connection changed).Wired := by
  have hre : ∀ target, system.Real target →
    ({ system with behaviour }.setLink connection changed).Real target :=
    fun target ht => real_setLink hl hs ht
  refine hwir.follow le_rfl hre (forall_insert (.inr ?_) fun _ _ => .inl) ha hr
  exact ⟨hwir.known connection link hl, hok, hc.mono hre⟩

theorem Wired.establish (peer : Peer) (ep : ConnectedPoint Peer) : (system.establish peer ep).Wired := by
  have hr : ∀ target, system.Real target → (system.establish peer ep).Real target :=
    fun target ht => (SystemStep.establish peer ep).real ht
  refine hwir.follow (Nat.le_succ _) hr (forall_insert (.inr ?_) fun _ _ => .inl) hwir.actions ?_
  · exact ⟨Nat.lt_succ_self _, ok_new peer ep, Link.wired_new peer ep⟩
  · intro peer' target ha
    have hs : (system.behaviour.setReservation peer system.nextConnection .none).reservation? peer' target =
      some .active := ha
    rw [reservation?_setReservation] at hs
    split_ifs at hs
    · cases hs
    · exact hwir.reserved peer' target hs

theorem Wired.closed (hl : system.links.get? connection = some link) (hd : link.alive = false)
    (hde : link.toBehaviour = []) : Wired { system with
      behaviour := system.behaviour.onConnectionClosed link.peer connection
      links := system.links.erase connection } := by
  refine hwir.follow le_rfl (fun target ht => (SystemStep.closed hl hd hde).real ht) ?_ ?_ ?_
  · exact fun other otherLink ho => .inl (get?_erase_iff.1 ho).2
  · exact fun peer target command hmem =>
      hwir.actions peer target command (notify_of_onConnectionClosed hmem)
  intro peer target ha
  have hc : (system.behaviour.onConnectionClosed link.peer connection).reservation? peer target = some .active :=
    ha
  rw [reservation?_onConnectionClosed] at hc
  split_ifs at hc
  exact hwir.reserved peer target hc

theorem Wired.deliver {event : HandlerEvent Peer} {rest : List (HandlerEvent Peer)}
    (hl : system.links.get? connection = some link) (he : link.toBehaviour = event :: rest)
    (hhad : system.behaviour.Handles link.peer connection event behaviour) :
    ({ system with behaviour }.setLink connection { link with toBehaviour := rest }).Wired := by
  have hh : system.Real connection := hwir.real_of_event hl (by rw [he]; exact cons_ne_nil _ _)
  have hliW := hwir.wired connection link hl
  refine hwir.setLink hl id (hwir.ok connection link hl) ?_ ?_ ?_
  · refine ⟨?_, hliW.commands, ?_, hliW.handler⟩
    · intro hn
      rw [(hliW.idle hn).2] at he
      cases he
    · exact fun other ho => hliW.events other (he ▸ mem_cons_of_mem _ ho)
  · intro peer target command hmem
    rcases hhad.actions peer target command hmem with hol | ⟨ht, hsor⟩
    · exact hwir.actions peer target command hol
    refine ⟨?_, fun named hna => hsor named hna ▸ hh⟩
    rcases ht with rfl | hs | ⟨dst, ha⟩
    · exact hh
    · exact hliW.events event (he ▸ mem_cons_self) target hs
    · exact hwir.reserved dst target ha
  · intro peer target ha
    by_cases hsa : peer = link.peer ∧ target = connection
    · exact hsa.2 ▸ hh
    · rw [hhad.reservation? peer target hsa] at ha
      exact hwir.reserved peer target ha

theorem Wired.notify {peer : Peer} {acts : List (Action Peer)}
    (ha : system.behaviour.queuedActions = .notifyHandler peer connection command :: acts) :
    ({ system with behaviour := { system.behaviour with queuedActions := acts } }.send connection command).Wired :=
    by
  have hf := hwir.actions peer connection command (ha ▸ mem_cons_self)
  have hr : ∀ peer target command, .notifyHandler peer target command ∈ acts →
      system.Real target ∧ ∀ source ∈ command.source?, system.Real source :=
    fun peer target command hmem => hwir.actions peer target command (ha ▸ mem_cons_of_mem _ hmem)
  rcases send_cases { system with behaviour := { system.behaviour with queuedActions := acts } } connection command
    with hs | ⟨link, hl, -, hse⟩
  · rw [hs]
    exact { hwir with actions := hr }
  rw [hse]
  have hg : system.links.get? connection = some link := hl
  have hliW := hwir.wired connection link hg
  refine hwir.setLink hg id (hwir.ok connection link hg) ?_ hr hwir.reserved
  refine ⟨?_, ?_, hliW.events, hliW.handler⟩
  · intro hn
    have hso := hf.1.2 link hg
    rw [show link.handler = none from hn] at hso
    cases hso
  · intro other ho
    rcases mem_concat ho with hol | rfl
    · exact hliW.commands other hol
    · exact hf.2

theorem Wired.step (hs : SystemStep system input events after) : after.Wired := by
  cases hs with
  | same => exact hwir
  | establish peer ep => exact hwir.establish peer ep
  | link hl hs =>
    exact hwir.setLink hl (step_keeps hs).2.1 ((hwir.ok _ _ hl).step hs)
      ((hwir.wired _ _ hl).step hs) hwir.actions hwir.reserved
  | closed hl hd hde => exact hwir.closed hl hd hde
  | deliver hl he hh => exact hwir.deliver hl he (handles_of_ok hh)
  | generate ha =>
    exact ⟨hwir.known, hwir.ok, hwir.wired, fun peer target command hmem =>
      hwir.actions peer target command (ha ▸ mem_cons_of_mem _ hmem), hwir.reserved⟩
  | notify ha => exact hwir.notify ha

end

theorem exists_update {act : Link Peer → Except Panic (Link Peer)}
    (ha : ∀ link, system.links.get? connection = some link → ∃ changed, act link = .ok changed) :
    ∃ events after, silently (system.update connection act) = .ok (events, after) := by
  unfold update withLink
  cases hl : system.links.get? connection with
  | none => exact ⟨_, _, rfl⟩
  | some link =>
    obtain ⟨_, hc⟩ := ha link hl
    dsimp only
    rw [hc]
    exact ⟨_, _, rfl⟩

/-- The handlers do not panic; so a step does not if the behaviour can handle the event that it is given. -/
theorem Wired.exists_step (hwir : system.Wired)
    (hd : ∀ connection link event rest now iter, system.links.get? connection = some link →
      link.toBehaviour = event :: rest →
      ∃ behaviour, system.behaviour.onConnectionHandlerEvent link.peer connection now iter event = .ok behaviour)
    (input : Input Peer) : ∃ events after, system.step input = .ok (events, after) := by
  cases input with
  | establish | pollBehaviour => exact ⟨_, _, rfl⟩
  | disconnect connection | closed connection =>
    unfold System.step withLink
    dsimp only
    cases system.links.get? connection <;> exact ⟨_, _, rfl⟩
  | deliver connection now iter =>
    unfold System.step withLink
    dsimp only
    cases hl : system.links.get? connection with
    | none => exact ⟨_, _, rfl⟩
    | some link =>
      unfold System.deliver
      dsimp only
      cases he : link.toBehaviour with
      | nil => exact ⟨_, _, rfl⟩
      | cons event rest =>
        obtain ⟨_, hb⟩ := hd connection link event rest now iter hl he
        dsimp only
        rw [hb]
        exact ⟨_, _, rfl⟩
  | command connection =>
    refine exists_update fun link hl => ?_
    unfold command
    split
    · exact ⟨_, rfl⟩
    · next hc hn =>
      rw [((hwir.wired connection link hl).idle hn).1] at hc
      cases hc
    · exact ⟨_, rfl⟩
  | inboundStream => exact exists_update fun link _ => exists_running fun handler _ => ⟨_, rfl⟩
  | outboundStream connection err =>
    exact exists_update fun link hl => exists_running fun handler hh =>
      (hwir.ok connection link hl).exists_outboundStream hh err
  | pollHandler connection ans =>
    exact exists_update fun link hl => exists_running fun handler hh =>
      (hwir.ok connection link hl).exists_pollHandler hh ans

end System
end RustLibp2p.Relay
