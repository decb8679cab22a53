import RustLibp2p.RelayWiring

/-! The reservations of a relay server, as the behaviour sees them and as the handlers do. Between the
two are queues, so what the behaviour has noted is compared with what it will have noted when the events
on their way have arrived. -/

namespace RustLibp2p.Relay

open Transition List Behaviour

variable {Peer L : Type}

def HandlerEvent.isReservationReq : HandlerEvent Peer → Bool
  | reservationReqReceived _ _ => true
  | _ => false

def HandlerEvent.isTimedOut : HandlerEvent Peer → Bool
  | reservationTimedOut => true
  | _ => false

def HandlerIn.isAccept : HandlerIn Peer → Bool
  | acceptReservationReq _ => true
  | _ => false

def Action.isAcceptFor (connection : ConnectionId) : Action Peer → Bool
  | notifyHandler _ target command => target = connection && command.isAccept
  | generateEvent _ => false

/-- Whether the connection holds a reservation when the events on their way have arrived, if no request among them
is granted. -/
def settles : Bool → List (HandlerEvent Peer) → Bool
  | active, [] => active
  | active, event :: events =>
    match event with
    | .reservationReqAccepted _ => settles true events
    | .reservationTimedOut => settles false events
    | _ => settles active events

/-- The events on their way tell of an acceptance or an end only for a reservation that is noted, no reservation ends
behind a request, and only a connection with a reservation renews it. -/
def Orderly : Bool → List (HandlerEvent Peer) → Prop
  | _, [] => True
  | active, event :: events =>
    match event with
    | .reservationReqAccepted _ => active = true ∧ Orderly true events
    | .reservationTimedOut => active = true ∧ Orderly false events
    | .reservationReqReceived endpoint renewed =>
      endpoint.isRelayed = false ∧ (renewed = true → active = true) ∧
        (∀ event ∈ events, event.isTimedOut = false) ∧ Orderly active events
    | .circuitReqReceived _ endpoint => endpoint.isRelayed = false ∧ Orderly active events
    | _ => Orderly active events

theorem settles_append (active : Bool) (events later : List (HandlerEvent Peer)) :
    settles active (events ++ later) = settles (settles active events) later := by
  induction events generalizing active with
  | nil => rfl
  | cons ev events ih => cases ev <;> exact ih _

variable {events : List (HandlerEvent Peer)}

theorem settles_of_noTimeout (hn : ∀ ev ∈ events, ev.isTimedOut = false) : settles true events := by
  induction events with
  | nil => rfl
  | cons ev events ih =>
    have hr := ih fun other ho => hn other (mem_cons_of_mem _ ho)
    cases ev with
    | reservationTimedOut => cases hn _ mem_cons_self
    | _ => exact hr

theorem Orderly.mono (ho : Orderly false events) : Orderly true events := by
  induction events with
  | nil => trivial
  | cons ev events ih =>
    cases ev with
    | reservationReqReceived => exact ⟨ho.1, fun _ => rfl, ho.2.2.1, ih ho.2.2.2⟩
    | reservationReqAccepted renewed | reservationTimedOut => exact ⟨rfl, ho.2⟩
    | circuitReqReceived => exact ⟨ho.1, ih ho.2⟩
    | _ => exact ih ho

variable {ev : HandlerEvent Peer}

theorem Orderly.append {active : Bool}
    (ho : Orderly active events) (he : Orderly (settles active events) [ev])
    (hen : ev.isTimedOut → ∀ earlier ∈ events, earlier.isReservationReq = false) :
    Orderly active (events ++ [ev]) := by
  induction events generalizing active with
  | nil => exact he
  | cons first events ih =>
    have henR : ev.isTimedOut → ∀ earlier ∈ events, earlier.isReservationReq = false :=
      fun ht earlier hea => hen ht earlier (mem_cons_of_mem _ hea)
    cases first with
    | reservationReqReceived =>
      obtain ⟨hd, hr, hn, hre⟩ := ho
      refine ⟨hd, hr, ?_, ih hre he henR⟩
      intro other hot
      rcases mem_append.1 hot with hol | hne
      · exact hn other hol
      rw [mem_singleton.1 hne]
      by_contra ht
      have hf := hen (Bool.not_eq_false _ ▸ ht) _ mem_cons_self
      cases hf
    | reservationReqAccepted renewed | reservationTimedOut | circuitReqReceived req endpoint =>
      exact ⟨ho.1, ih ho.2 he henR⟩
    | _ => exact ih ho he henR

theorem orderly_singleton_of_plain (hp : ev.plain) :
    (∀ active, Orderly active [ev] ∧ settles active [ev] = active) ∧ ev.isTimedOut = false := by
  cases ev <;> first | exact ⟨fun _ => ⟨trivial, rfl⟩, rfl⟩ | cases hp

variable [LinearOrder Peer] {actions : List (Action Peer)} {target : ConnectionId} {other : ConnectionId}
  {cmd : HandlerIn Peer}

namespace Behaviour

def holds (behaviour : Behaviour Peer L) (peer : Peer) (connection : ConnectionId) : Bool :=
  behaviour.reservation? peer connection = some .active

variable {peer : Peer}

theorem holds_congr {behaviour behaviour' : Behaviour Peer L} {connection : ConnectionId}
    (hs : behaviour'.reservation? peer connection = behaviour.reservation? peer connection) :
    behaviour'.holds peer connection = behaviour.holds peer connection := by
  rw [holds, holds, hs]

/-- An acceptance is on its way to the remote. -/
def AcceptAhead (behaviour : Behaviour Peer L) (connection : ConnectionId) (link : Link Peer) : Prop :=
  (∃ action ∈ behaviour.queuedActions, action.isAcceptFor connection = true) ∨
  (∃ command ∈ link.toHandler, command.isAccept = true) ∨
  ∃ handler, link.handler = some handler ∧ handler.reservationRequestFuture = some .accepting

/-- The connection will hold a reservation if its handler has one or an acceptance is on its way. -/
structure Keeps (behaviour : Behaviour Peer L) (connection : ConnectionId) (link : Link Peer) : Prop where
  orderly : Orderly (behaviour.holds link.peer connection) link.toBehaviour
  active : link.alive → ∀ handler, link.handler = some handler → handler.activeReservation = true →
    settles (behaviour.holds link.peer connection) link.toBehaviour = true
  accepting : link.alive → behaviour.AcceptAhead connection link →
    settles (behaviour.holds link.peer connection) link.toBehaviour = true

/-- No request for a reservation and no acceptance is on its way. -/
def quiet (behaviour : Behaviour Peer L) (connection : ConnectionId) (link : Link Peer) : Bool :=
  (link.toBehaviour.all fun event => !event.isReservationReq) &&
  (behaviour.queuedActions.all fun action => !action.isAcceptFor connection) &&
  (link.toHandler.all fun command => !command.isAccept) &&
  link.handler.all fun handler => handler.reservationRequestFuture ≠ some .accepting

variable {behaviour behaviour' : Behaviour Peer L} {connection : ConnectionId} {link after : Link Peer}

theorem not_acceptAhead_of_quiet (hq : behaviour.quiet connection link) : ¬ behaviour.AcceptAhead connection link := by
  simp only [quiet, Bool.and_eq_true, all_eq_true, Bool.not_eq_true'] at hq
  rintro (⟨act, ha, hac⟩ | ⟨cmd, hc, hac⟩ | ⟨handler, hh, hae⟩)
  · rw [hq.1.1.2 act ha] at hac
    cases hac
  · rw [hq.1.2 cmd hc] at hac
    cases hac
  · rw [hh, Option.all_some, hae] at hq
    simp at hq

theorem noRequest_of_quiet (hq : behaviour.quiet connection link) :
    ∀ ev ∈ link.toBehaviour, ev.isReservationReq = false := by
  simp only [quiet, Bool.and_eq_true, all_eq_true, Bool.not_eq_true'] at hq
  exact hq.1.1.1

variable {rest : List (HandlerEvent Peer)}

theorem acceptAhead_of_actions (ha : ∀ act ∈ behaviour'.queuedActions, act.isAcceptFor connection →
      act ∈ behaviour.queuedActions)
    (hah : behaviour'.AcceptAhead connection { link with toBehaviour := rest }) :
    behaviour.AcceptAhead connection link := by
  rcases hah with ⟨act, hac, hacc⟩ | hr
  · exact .inl ⟨act, ha act hac hacc, hacc⟩
  · exact .inr hr

theorem Keeps.frame (hkee : behaviour.Keeps connection link)
    (hh : behaviour'.holds link.peer connection = behaviour.holds link.peer connection)
    (ha : ∀ act ∈ behaviour'.queuedActions, act.isAcceptFor connection →
      act ∈ behaviour.queuedActions) : behaviour'.Keeps connection link where
  orderly := hh ▸ hkee.orderly
  active := hh ▸ hkee.active
  accepting := fun hal hah => by
    rw [hh]
    exact hkee.accepting hal (acceptAhead_of_actions ha hah)

/-- The handler of the connection holds no reservation that it did not hold before, and accepts none anew. -/
structure Follows (behaviour : Behaviour Peer L) (connection : ConnectionId) (link after : Link Peer) : Prop where
  peer : after.peer = link.peer
  active : ∀ handler, after.handler = some handler → handler.activeReservation = true →
    ∃ earlier, link.handler = some earlier ∧ earlier.activeReservation = true
  ahead : behaviour.AcceptAhead connection after → behaviour.AcceptAhead connection link

theorem AcceptAhead.of_handler {handler earlier : Handler Peer} (ha : behaviour.AcceptAhead connection after)
    (hc : after.toHandler = link.toHandler) (haf : after.handler = some handler)
    (he : link.handler = some earlier) (hf : handler.reservationRequestFuture = some .accepting →
      earlier.reservationRequestFuture = some .accepting) : behaviour.AcceptAhead connection link := by
  rcases ha with hac | ⟨cmd, hco, hacc⟩ | ⟨_, ho, hae⟩
  · exact .inl hac
  · exact .inr (.inl ⟨cmd, hc ▸ hco, hacc⟩)
  · cases haf.symm.trans ho
    exact .inr (.inr ⟨earlier, he, hf hae⟩)

theorem Follows.of_handler {handler earlier : Handler Peer} (hp : after.peer = link.peer)
    (hc : after.toHandler = link.toHandler) (ha : after.handler = some handler)
    (he : link.handler = some earlier)
    (hac : handler.activeReservation → earlier.activeReservation)
    (hf : handler.reservationRequestFuture = some .accepting →
      earlier.reservationRequestFuture = some .accepting) : behaviour.Follows connection link after := by
  refine ⟨hp, fun other ho hh => ?_, fun hah => hah.of_handler hc ha he hf⟩
  cases ha.symm.trans ho
  exact ⟨earlier, he, hac hh⟩

section

variable (hkee : behaviour.Keeps connection link)
include hkee

theorem Keeps.handler (hf : behaviour.Follows connection link after)
    (he : after.toBehaviour = link.toBehaviour) (ha : after.alive → link.alive) :
    behaviour.Keeps connection after where
  orderly := by
    rw [hf.peer, he]
    exact hkee.orderly
  active := fun hl handler hh hac => by
    rw [hf.peer, he]
    obtain ⟨earlier, hea, hhe⟩ := hf.active handler hh hac
    exact hkee.active (ha hl) earlier hea hhe
  accepting := fun hl hah => by
    rw [hf.peer, he]
    exact hkee.accepting (ha hl) (hf.ahead hah)

theorem Keeps.event
    (hp : after.peer = link.peer) (he : after.toBehaviour = link.toBehaviour ++ [ev])
    (hf : Orderly (settles (behaviour.holds link.peer connection) link.toBehaviour) [ev])
    (hen : ev.isTimedOut → ∀ earlier ∈ link.toBehaviour, earlier.isReservationReq = false)
    (ha : ∀ handler, after.handler = some handler → handler.activeReservation →
      settles (settles (behaviour.holds link.peer connection) link.toBehaviour) [ev])
    (hah : behaviour.AcceptAhead connection after →
      settles (settles (behaviour.holds link.peer connection) link.toBehaviour) [ev]) :
    behaviour.Keeps connection after where
  orderly := by
    rw [hp, he]
    exact hkee.orderly.append hf hen
  active := fun _ handler hh hhe => by
    rw [hp, he, settles_append]
    exact ha handler hh hhe
  accepting := fun _ hah' => by
    rw [hp, he, settles_append]
    exact hah hah'

theorem Keeps.plain (hf : behaviour.Follows connection link after)
    (he : after.toBehaviour = link.toBehaviour ++ [ev]) (ha : link.alive)
    (hfi : ∀ active, Orderly active [ev] ∧ settles active [ev] = active) (hen : ev.isTimedOut = false) :
    behaviour.Keeps connection after := by
  refine hkee.event hf.peer he (hfi _).1 ?_ ?_ ?_
  · intro ht
    rw [hen] at ht
    cases ht
  · intro handler hh hhe
    rw [(hfi _).2]
    obtain ⟨earlier, hea, hhe'⟩ := hf.active handler hh hhe
    exact hkee.active ha earlier hea hhe'
  · intro hah
    rw [(hfi _).2]
    exact hkee.accepting ha (hf.ahead hah)

end

variable {handler : Handler Peer}

theorem Keeps.command {ev : HandlerIn Peer} {rest : List (HandlerIn Peer)}
    (hkee : behaviour.Keeps connection link) (hc : link.toHandler = ev :: rest)
    (hh : link.handler = some handler) : behaviour.Keeps connection
      { link with toHandler := rest, handler := some (handler.onBehaviourEvent ev) } := by
  refine hkee.handler ⟨rfl, ?_, ?_⟩ rfl id
  · intro after ha hhe
    cases ha
    refine ⟨handler, hh, ?_⟩
    cases ev <;> exact hhe
  · rintro (hac | ⟨other, ho, hacc⟩ | ⟨after, ha, hae⟩)
    · exact .inl hac
    · exact .inr (.inl ⟨other, hc ▸ mem_cons_of_mem _ ho, hacc⟩)
    cases ha
    cases ev with
    | acceptReservationReq => exact .inr (.inl ⟨_, hc ▸ mem_cons_self, rfl⟩)
    | denyReservationReq => cases hae
    | denyCircuitReq circuit req status | negotiateOutboundConnect circuit req src srcConnection =>
      exact .inr (.inr ⟨handler, hh, hae⟩)
    | acceptAndDriveCircuit => exact .inr (.inr ⟨handler, hh, hae⟩)

variable {fires : Prop}

section

variable (hkee : behaviour.Keeps connection link) (hok : link.Ok) (hfie : fires → behaviour.quiet connection link)
include hkee hok hfie

theorem Keeps.polled {afterHandler : Handler Peer} {ev : Option (HandlerOut Peer)}
    {workers : Nat} (hh : link.handler = some handler) (ha : link.alive)
    (hp : (handler.withInbound workers).PollStep fires ev afterHandler) :
    behaviour.Keeps connection ({ link with handler := some afterHandler }.pushOut ev) := by
  have hhaO := hok handler hh
  cases hp with
  | idle => exact hkee.handler (.of_handler rfl rfl rfl hh id id) rfl id
  | queued hq =>
    rename_i out rest
    cases out with
    | outboundSubstreamRequest => exact hkee.handler (.of_handler rfl rfl rfl hh id id) rfl id
    | notifyBehaviour ev =>
      have hpl : ev.plain := hhaO.queued ev (show _ ∈ handler.queuedEvents from hq ▸ mem_cons_self)
      obtain ⟨hf, he⟩ := orderly_singleton_of_plain hpl
      exact hkee.plain (.of_handler rfl rfl rfl hh id id) rfl ha hf he
  | reserve =>
    refine hkee.event rfl rfl ⟨hhaO.endpoint, fun hr => ?_, forall_mem_nil _, trivial⟩ nofun ?_ ?_
    · exact hkee.active ha handler hh hr
    · rintro after ⟨⟩ hhe
      exact hkee.active ha handler hh hhe
    · exact fun hah => hkee.accepting ha (hah.of_handler rfl rfl hh id)
  | timedOut hfi hac =>
    have hqu := hfie hfi
    refine hkee.event rfl rfl ⟨hkee.active ha handler hh hac, trivial⟩ (fun _ => noRequest_of_quiet hqu) ?_ ?_
    · rintro after ⟨⟩ hhe
      cases hhe
    · intro hah
      have hb : behaviour.AcceptAhead connection link := hah.of_handler rfl rfl hh id
      exact absurd hb (not_acceptAhead_of_quiet hqu)
  | reservationAccepted hfu =>
    have hhe := hkee.accepting ha (.inr (.inr ⟨handler, hh, hfu⟩))
    exact hkee.event rfl rfl ⟨hhe, trivial⟩ nofun (fun _ _ _ => rfl) fun _ => rfl
  | connect =>
    exact hkee.plain (.of_handler rfl rfl rfl hh id id) rfl ha (fun _ => ⟨⟨hhaO.endpoint, trivial⟩, rfl⟩) rfl
  | reservationAcceptFailed error | reservationDenied status | reservationDenyFailed error =>
    exact hkee.plain (.of_handler rfl rfl rfl hh id nofun) rfl ha (fun _ => ⟨trivial, rfl⟩) rfl
  | _ => exact hkee.plain (.of_handler rfl rfl rfl hh id id) rfl ha (fun _ => ⟨trivial, rfl⟩) rfl

/-- What happens to a connection keeps its reservation in step, if it does not end behind a request. -/
theorem Keeps.step (hs : LinkStep fires link after) : behaviour.Keeps connection after := by
  cases hs with
  | same => exact hkee
  | disconnect =>
    refine ⟨hkee.orderly, ?_, ?_⟩
    all_goals
      intro ha
      cases ha
  | command hc hh => exact hkee.command hc hh
  | inbound hh => exact hkee.handler (.of_handler rfl rfl rfl hh id id) rfl id
  | opened hh hr ho =>
    unfold Handler.onFullyNegotiatedOutbound at ho
    split at ho
    · cases ho
    · cases ho
      exact hkee.handler (.of_handler rfl rfl rfl hh id id) rfl id
  | failed err hh hr hf =>
    unfold Handler.onDialUpgradeError at hf
    split at hf
    · cases hf
    · cases hf
      exact hkee.handler (.of_handler rfl rfl rfl hh id id) rfl id
  | polled hh ha hp => exact hkee.polled hok hfie hh ha hp

end

section

variable (behaviour : Behaviour Peer L) (peer : Peer) (connection : ConnectionId)

theorem holds_setReservation : (behaviour.setReservation peer connection .active).holds peer connection := by
  rw [holds, reservation?_setReservation, if_pos ⟨rfl, rfl⟩]
  rfl

theorem holds_dropConnection : (behaviour.dropConnection peer connection).holds peer connection = false := by
  rw [holds, reservation?_dropConnection, if_pos ⟨rfl, rfl⟩]
  rfl

end

theorem exists_of_orderly
    (ho : Orderly (behaviour.holds peer connection) (ev :: rest)) (now : Nat) (iter : IterOrder) :
    ∃ after, behaviour.onConnectionHandlerEvent peer connection now iter ev = .ok after := by
  have hk : behaviour.holds peer connection → (behaviour.connections.get? peer).isNone = false := by
    intro hh
    rw [← Option.not_isSome, isSome_of_reservation? (of_decide_eq_true hh)]
    rfl
  cases ev with
  | reservationReqReceived =>
    unfold onConnectionHandlerEvent onReservationReqReceived
    dsimp only
    rw [ho.1, if_neg Bool.false_ne_true]
    split_ifs <;> exact ⟨_, rfl⟩
  | circuitReqReceived =>
    unfold onConnectionHandlerEvent onCircuitReqReceived
    dsimp only
    rw [ho.1, if_neg Bool.false_ne_true]
    split_ifs <;> exact ⟨_, rfl⟩
  | reservationReqAccepted =>
    unfold onConnectionHandlerEvent onReservationReqAccepted
    rw [hk ho.1]
    exact ⟨_, rfl⟩
  | reservationTimedOut =>
    unfold onConnectionHandlerEvent onReservationTimedOut
    rw [hk ho.1]
    exact ⟨_, rfl⟩
  | _ => exact ⟨_, rfl⟩

theorem Keeps.skip {held : Bool} (hkee : behaviour.Keeps connection link)
    (he : link.toBehaviour = ev :: rest)
    (ho : Orderly (behaviour.holds link.peer connection) (ev :: rest) → Orderly held rest)
    (hs : settles (behaviour.holds link.peer connection) (ev :: rest) = settles held rest)
    (hh : behaviour'.holds link.peer connection = held)
    (ha : ∀ act ∈ behaviour'.queuedActions, act.isAcceptFor connection →
      act ∈ behaviour.queuedActions) : behaviour'.Keeps connection { link with toBehaviour := rest } where
  orderly := hh ▸ ho (he ▸ hkee.orderly)
  active := fun hal handler hha hhe => by
    have hse := hkee.active hal handler hha hhe
    rw [he, hs] at hse
    exact hh ▸ hse
  accepting := fun hal hah => by
    have hse := hkee.accepting hal (acceptAhead_of_actions ha hah)
    rw [he, hs] at hse
    exact hh ▸ hse

omit [LinearOrder Peer] in
theorem not_isAcceptFor {peer : Peer} (hc : cmd.isAccept = false) :
    (Action.notifyHandler peer target cmd).isAcceptFor connection = false := by
  rw [Action.isAcceptFor, hc, Bool.and_false]

omit [LinearOrder Peer] in
theorem mem_of_push {new : Action Peer} (hn : new.isAcceptFor connection = false) :
    ∀ act ∈ actions ++ [new], act.isAcceptFor connection → act ∈ actions := by
  intro _ ha hac
  rcases mem_append.1 ha with ho | hl
  · exact ho
  · rw [mem_singleton.1 hl, hn] at hac
    cases hac

/-- Only a request for a reservation can be answered with an acceptance, and only on its connection. -/
theorem Handles.accept {src : Peer}
    (hh : behaviour.Handles src connection ev behaviour') (other : ConnectionId)
    (ho : other ≠ connection ∨ ev.isReservationReq = false) :
    ∀ act ∈ behaviour'.queuedActions, act.isAcceptFor other → act ∈ behaviour.queuedActions := by
  cases hh with
  | reserved =>
    rcases ho with ho | he
    · refine mem_of_push ?_
      rw [Action.isAcceptFor, decide_eq_false (Ne.symm ho), Bool.false_and]
    · cases he
  | refused | forwarded hs ht hd | circuitRefused | negotiated => exact mem_of_push (not_isAcceptFor rfl)
  | negotiationFailed =>
    exact fun act ha hac =>
      mem_of_push (not_isAcceptFor rfl) act (mem_of_push rfl act ha hac) hac
  | circuitDenied | circuitDenyFailed =>
    rename_i circ dst _
    cases circ <;> exact mem_of_push rfl
  | _ => exact mem_of_push rfl

theorem Keeps.deliver
    (hkee : behaviour.Keeps connection link) (he : link.toBehaviour = ev :: rest)
    (hh : behaviour.Handles link.peer connection ev behaviour') :
    behaviour'.Keeps connection { link with toBehaviour := rest } := by
  have ho := hkee.orderly
  have ha := fun hp => hh.accept connection (.inr hp)
  rw [he] at ho
  cases hh with
  | reserved hpe ht =>
    rename_i ep renewed limiters
    obtain ⟨-, -, hn, hr⟩ := ho
    have hho := holds_setReservation
      (behaviour.withLimiters limiters behaviour.circuitSrcRateLimiters) link.peer connection
    have hs := settles_of_noTimeout hn
    refine ⟨?_, fun _ _ _ _ => ?_, fun _ _ => ?_⟩
    · refine (congrArg (Orderly · rest) hho).mpr ?_
      cases hac : behaviour.holds link.peer connection with
      | true => exact hac ▸ hr
      | false =>
        rw [hac] at hr
        exact hr.mono
    all_goals exact (congrArg (settles · rest) hho).trans hs
  | refused => exact hkee.skip he (fun h => h.2.2.2) rfl rfl (mem_of_push (not_isAcceptFor rfl))
  | reservationAccepted =>
    exact hkee.skip he And.right rfl (holds_setReservation behaviour link.peer connection) (ha rfl)
  | timedOut =>
    exact hkee.skip he And.right rfl (holds_dropConnection behaviour link.peer connection) (ha rfl)
  | forwarded hso ht hd | circuitRefused => exact hkee.skip he And.right rfl rfl (ha rfl)
  | circuitDenied | circuitDenyFailed =>
    rename_i circ dst _
    cases circ <;> exact hkee.skip he id rfl rfl (ha rfl)
  | _ => exact hkee.skip he id rfl rfl (ha rfl)

end Behaviour

namespace System

/-- In this step no reservation ends while a request or an acceptance of its connection is on its way. -/
def timely (system : System Peer L) : Input Peer → Bool
  | .pollHandler connection answers =>
    !system.timerFires (.pollHandler connection answers) ||
      (system.links.get? connection).all fun link => system.behaviour.quiet connection link
  | _ => true

structure Sound (system : System Peer L) : Prop where
  wired : system.Wired
  keeps : ∀ connection link, system.links.get? connection = some link → system.behaviour.Keeps connection link

variable {system after : System Peer L}

theorem sound_new (localPeerId : Peer) (config : Config Peer L) (addrs : List (Multiaddr Peer))
    (limiters limiters' : List L) : (new (.new localPeerId config addrs limiters limiters')).Sound :=
  ⟨wired_new _ rfl fun _ _ => rfl, nofun⟩

variable {connection : ConnectionId} {link : Link Peer}

theorem get?_setLink {system : System Peer L} {changed : Link Peer}
    (ho : (system.setLink connection changed).links.get? other = some link) :
    (other = connection ∧ link = changed) ∨ (other ≠ connection ∧ system.links.get? other = some link) := by
  exact OrdMap.get?_insert_iff.1 ho

theorem Sound.keeps_establish (hs : system.Sound) (peer : Peer) (ep : ConnectedPoint Peer)
    (hl : (system.establish peer ep).links.get? connection = some link) :
    (system.establish peer ep).behaviour.Keeps connection link := by
  unfold establish at hl
  rw [OrdMap.get?_insert] at hl
  split_ifs at hl with hn
  · cases hl
    refine ⟨trivial, ?_, ?_⟩
    · intro ha handler hh hhe
      unfold Link.new at hh
      split_ifs at hh
      cases hh
      cases hhe
    · rintro ha (⟨act, hac, hacc⟩ | ⟨cmd, hc, -⟩ | ⟨handler, hh, hae⟩)
      · cases act with
        | generateEvent => cases hacc
        | notifyHandler target other cmd =>
          have hr := (hs.wired.actions target other cmd hac).1
          rw [Action.isAcceptFor, Bool.and_eq_true, decide_eq_true_eq] at hacc
          rw [hacc.1, hn] at hr
          exact absurd hr.1 (Nat.lt_irrefl _)
      · cases hc
      unfold Link.new at hh
      split_ifs at hh
      cases hh
      cases hae
  · refine (hs.keeps connection link hl).frame (holds_congr ?_) fun act hac _ => hac
    exact (reservation?_setReservation _ _ _ _ _ _).trans (if_neg fun hb => hn hb.2)

theorem Sound.keeps_notify (hs : system.Sound) {peer : Peer}
    (ha : system.behaviour.queuedActions = .notifyHandler peer target cmd :: actions)
    (hl : ({ system with behaviour := { system.behaviour with queuedActions := actions } }.send
      target cmd).links.get? connection = some link) :
    ({ system with behaviour := { system.behaviour with queuedActions := actions } }.send
      target cmd).behaviour.Keeps connection link := by
  have hf : ∀ connection link, system.links.get? connection = some link →
      Behaviour.Keeps { system.behaviour with queuedActions := actions } connection link := by
    intro connection link hl
    exact (hs.keeps connection link hl).frame rfl fun act hac _ =>
      ha ▸ mem_cons_of_mem _ hac
  rcases send_cases { system with behaviour := { system.behaviour with queuedActions := actions } } target cmd
    with hsa | ⟨sent, hse, hal, haf⟩
  · rw [hsa] at hl ⊢
    exact hf connection link hl
  rw [haf] at hl ⊢
  rcases get?_setLink hl with ⟨rfl, rfl⟩ | ⟨-, ho⟩
  · have hkee := hs.keeps connection sent hse
    refine { hkee with accepting := fun _ hah => hkee.accepting hal ?_ }
    rcases hah with ⟨act, hac, hacc⟩ | ⟨other, hot, hacc⟩ | hae
    · exact .inl ⟨act, ha ▸ mem_cons_of_mem _ hac, hacc⟩
    · rcases mem_append.1 hot with ho | hn
      · exact .inr (.inl ⟨other, ho, hacc⟩)
      rw [mem_singleton.1 hn] at hacc
      refine .inl ⟨_, ha ▸ mem_cons_self, ?_⟩
      rw [Action.isAcceptFor, decide_eq_true rfl, hacc]
      rfl
    · exact .inr (.inr hae)
  · exact hf connection link ho

variable {input : Input Peer}

theorem quiet_of_timely (ht : system.timely input) (hl : system.links.get? connection = some link)
    (hfie : system.timerFires input ∧ ∃ ans, input = .pollHandler connection ans) :
    system.behaviour.quiet connection link := by
  obtain ⟨hfie, _, rfl⟩ := hfie
  rw [timely, hfie, hl] at ht
  exact ht

theorem Sound.step {events : List (Event Peer)} (hs : system.Sound)
    (ht : system.timely input) (hst : SystemStep system input events after) : after.Sound := by
  refine ⟨hs.wired.step hst, fun connection link hl => ?_⟩
  cases hst with
  | same => exact hs.keeps connection link hl
  | establish peer ep => exact hs.keeps_establish peer ep hl
  | link hc hst =>
    rcases get?_setLink hl with ⟨rfl, rfl⟩ | ⟨-, ho⟩
    · exact (hs.keeps _ _ hc).step (hs.wired.ok _ _ hc) (quiet_of_timely ht hc) hst
    · exact hs.keeps connection link ho
  | closed =>
    rw [OrdMap.get?_erase] at hl
    split_ifs at hl with hne
    refine (hs.keeps connection link hl).frame (holds_congr ?_) ?_
    · exact (reservation?_onConnectionClosed _ _ _ _ _).trans (if_neg fun hb => hne hb.2)
    intro act ha hac
    cases act with
    | generateEvent => cases hac
    | notifyHandler => exact notify_of_onConnectionClosed ha
  | deliver hd he hh =>
    have hha := handles_of_ok hh
    rcases get?_setLink hl with ⟨rfl, rfl⟩ | ⟨hne, ho⟩
    · exact (hs.keeps _ _ hd).deliver he hha
    · refine (hs.keeps connection link ho).frame (holds_congr ?_) (hha.accept _ (.inl hne))
      exact hha.reservation? _ _ fun hb => hne hb.2
  | generate hai =>
    exact (hs.keeps connection link hl).frame rfl fun act ha _ =>
      hai ▸ mem_cons_of_mem _ ha
  | notify hai => exact hs.keeps_notify hai hl

theorem Sound.exists_step (hs : system.Sound) (input : Input Peer) :
    ∃ events after, system.step input = .ok (events, after) := by
  refine hs.wired.exists_step ?_ input
  intro connection link _ _ now iter hl he
  exact exists_of_orderly (he ▸ (hs.keeps connection link hl).orderly) now iter

/-- In every run of a relay server in which no reservation ends while its renewal is on its way, no branch that must
not be reached is reached, whatever the order of the events. -/
theorem run_reaches_no_panic (localPeerId : Peer) (config : Config Peer L) (addrs : List (Multiaddr Peer))
    (limiters limiters' : List L) (inputs : List (Input Peer))
    (htimely : Along step (fun system input => system.timely input)
      (new (.new localPeerId config addrs limiters limiters')) inputs) :
    ∃ events last, run step (new (.new localPeerId config addrs limiters limiters')) inputs = .ok (events, last) := by
  have hs : ∀ (past : List (List (Event Peer))) (system : System Peer L) input, system.Sound →
      system.timely input → ∃ events next, system.step input = .ok (events, next) ∧ next.Sound := by
    intro _ system input hso hi
    obtain ⟨events, next, hok⟩ := hso.exists_step input
    exact ⟨events, next, hok, hso.step hi (step_cases hok)⟩
  obtain ⟨events, last, hrun, -⟩ := run_total_along hs inputs []
    (sound_new localPeerId config addrs limiters limiters') htimely
  exact ⟨events, last, hrun⟩

section

variable (connection : ConnectionId)

/-- A peer asks for a reservation, and the relay takes the request up to where its acceptance is being written. -/
def reserveInputs : List (Input Nat) :=
  [.inboundStream connection,
    .pollHandler connection { (TaskAnswers.idle : TaskAnswers Nat) with inbound := [.reserve] },
    .deliver connection 0 .stored, .pollBehaviour, .command connection]

/-- The acceptance is written, and the user hears of it. -/
def acceptInputs : List (Input Nat) :=
  [.pollHandler connection { (TaskAnswers.idle : TaskAnswers Nat) with reservation := some (.ok ()) },
    .deliver connection 0 .stored, .pollBehaviour]

def timeoutInputs : List (Input Nat) :=
  [.pollHandler connection { (TaskAnswers.idle : TaskAnswers Nat) with timer := true },
    .deliver connection 0 .stored, .pollBehaviour]

end

def unlimited : System Nat Unit := new (.new 0 (.default fun limiter _ _ _ => (true, limiter)) [] [] [])

theorem run_reaches_no_panic_renewed : Along step (fun system input => system.timely input) unlimited
      (.establish 1 (.listener [] []) :: reserveInputs 0 ++ acceptInputs 0 ++ reserveInputs 0 ++ acceptInputs 0 ++
        timeoutInputs 0) ∧
    ∃ events last, run step unlimited
      (.establish 1 (.listener [] []) :: reserveInputs 0 ++ acceptInputs 0 ++ reserveInputs 0 ++ acceptInputs 0 ++
        timeoutInputs 0) = .ok (events, last) :=
  have ht : Along step (fun system input => system.timely input) unlimited
      (.establish 1 (.listener [] []) :: reserveInputs 0 ++ acceptInputs 0 ++ reserveInputs 0 ++ acceptInputs 0 ++
        timeoutInputs 0) := by decide +kernel
  ⟨ht, run_reaches_no_panic 0 _ [] [] [] _ ht⟩

/-- The reservation ends while the acceptance of its renewal is being written. The peer has no other connection, so it
is forgotten, and the behaviour does not find it when the acceptance is reported. -/
theorem panic_of_late_renewal : run step unlimited
      (.establish 1 (.listener [] []) :: reserveInputs 0 ++ acceptInputs 0 ++ reserveInputs 0 ++ timeoutInputs 0 ++
        acceptInputs 0) = .error .invalidConnection := rfl

end System
end RustLibp2p.Relay
