import RustLibp2p.RelayReservations

/-! What the user of a relay server hears of reservations: that one is accepted anew, and that it ends.
-/

namespace RustLibp2p.Relay
open List Transition Behaviour

variable {Peer L : Type}

/-! ### The events of a handler -/

/-- Whether a reservation is held before the events, from whether one is held after them, if after every acceptance one
is held and after every end none. -/
def heldBefore (later : Bool) : List (HandlerEvent Peer) → Option Bool
  | [] => some later
  | .reservationReqAccepted renewed :: rest => if heldBefore later rest = some true then some renewed else none
  | .reservationTimedOut :: rest => if heldBefore later rest = some false then some true else none
  | _ :: rest => heldBefore later rest

/-- The event tells of a reservation that was not there before. -/
@[simp] def HandlerEvent.opens : HandlerEvent Peer → Bool
  | reservationReqAccepted renewed => !renewed
  | _ => false

variable {later before after : Bool} {event : HandlerEvent Peer} {events : List (HandlerEvent Peer)}

theorem heldBefore_concat (hb : heldBefore after [event] = some later) (events : List (HandlerEvent Peer)) :
    heldBefore after (events ++ [event]) = heldBefore later events := by
  induction events with
  | nil => exact hb
  | cons first rest ih => cases first <;> simp only [cons_append, heldBefore, ih]

/-- What an event tells is the difference between what is held before it and after it. -/
theorem heldBefore_cons (hb : heldBefore later (event :: events) = some before) :
    ∃ now, heldBefore later events = some now ∧
      event.opens.toNat + before.toNat = event.isTimedOut.toNat + now.toNat := by
  cases event with
  | reservationReqAccepted renewed =>
    obtain ⟨hn, hr⟩ := Option.ite_none_right_eq_some.1 hb
    refine ⟨true, hn, ?_⟩
    cases hr
    cases before <;> rfl
  | reservationTimedOut =>
    obtain ⟨hn, hr⟩ := Option.ite_none_right_eq_some.1 hb
    cases hr
    exact ⟨false, hn, rfl⟩
  | _ => exact ⟨before, hb, rfl⟩

namespace Link

variable {fires : Prop} {link changed : Link Peer}

def active (link : Link Peer) : Bool := link.handler.any (·.activeReservation)

/-- The behaviour has been told of a reservation and not of its end. -/
def held (link : Link Peer) : Option Bool := heldBefore link.active link.toBehaviour

section

variable {handler next : Handler Peer} (hh : link.handler = some handler)
include hh

theorem held_of_handler (hc : changed.handler = some next) (hn : next.activeReservation = handler.activeReservation)
    (he : changed.toBehaviour = link.toBehaviour) : changed.held = link.held := by
  rw [held, held, active, active, hh, hc, he, Option.any_some, Option.any_some, hn]

theorem held_of_event (hb : heldBefore next.activeReservation [event] = some handler.activeReservation) :
    ({ link with handler := some next }.pushOut (some (.notifyBehaviour event))).held = link.held := by
  rw [held, held, active, active, hh]
  exact heldBefore_concat hb _

theorem held_of_poll {out : Option (HandlerOut Peer)} {workers : Nat} (hok : handler.Ok link.requested)
    (hp : (handler.withInbound workers).PollStep fires out next) :
    ({ link with handler := some next }.pushOut out).held = link.held := by
  cases hp with
  | idle => exact held_of_handler hh rfl rfl rfl
  | queued hq =>
    rename_i out rest
    cases out with
    | outboundSubstreamRequest => exact held_of_handler hh rfl rfl rfl
    | notifyBehaviour event =>
      have hpl : event.plain := hok.queued event (show _ ∈ handler.queuedEvents from hq ▸ mem_cons_self)
      cases event with
      | reservationReqAccepted | reservationTimedOut => cases hpl
      | _ => exact held_of_event hh rfl
  | timedOut hf ha => exact held_of_event hh (congrArg some ha.symm)
  | _ => exact held_of_event hh rfl

end

theorem held_of_step (hok : link.Ok) (hs : LinkStep fires link changed) : changed.held = link.held := by
  cases hs with
  | same | disconnect => rfl
  | command hc hh =>
    rename_i command _ _
    refine held_of_handler hh rfl ?_ rfl
    cases command <;> rfl
  | inbound hh => exact held_of_handler hh rfl rfl rfl
  | opened hh hr ho =>
    unfold Handler.onFullyNegotiatedOutbound at ho
    split at ho
    · cases ho
    · cases ho
      exact held_of_handler hh rfl rfl rfl
  | failed err hh hr hf =>
    unfold Handler.onDialUpgradeError at hf
    split at hf
    · cases hf
    · cases hf
      exact held_of_handler hh rfl rfl rfl
  | polled hh _ hp => exact held_of_poll hh (hok _ hh) hp

end Link

/-! ### The events for the user -/

@[simp] def Action.event? : Action Peer → Option (Event Peer)
  | generateEvent event => some event
  | notifyHandler _ _ _ => none

section

variable [DecidableEq Peer] (peer : Peer)

/-- A reservation of the peer is accepted that was not there before. -/
@[simp] def Event.opens : Event Peer → Bool
  | reservationReqAccepted src renewed => src = peer && !renewed
  | _ => false

/-- A reservation of the peer is closed or timed out. -/
@[simp] def Event.ends : Event Peer → Bool
  | reservationClosed src => src = peer
  | reservationTimedOut src => src = peer
  | _ => false

end

variable [LinearOrder Peer]

namespace Behaviour

variable {behaviour next : Behaviour Peer L} {source : Peer} {connection : ConnectionId}

def told (behaviour : Behaviour Peer L) : List (Event Peer) := behaviour.queuedActions.filterMap Action.event?

theorem told_pushAction (behaviour : Behaviour Peer L) (act : Action Peer) :
    (behaviour.pushAction act).told = behaviour.told ++ act.event?.toList := by
  rw [told, pushAction, filterMap_append, told]
  cases act <;> rfl

/-- The events tell the user what an event of a handler of the peer tells of reservations. -/
def Tells (source : Peer) (event : HandlerEvent Peer) (more : List (Event Peer)) : Prop :=
  ∀ peer, more.countP (·.opens peer) = (if source = peer then event.opens.toNat else 0) ∧
    more.countP (·.ends peer) = if source = peer then event.isTimedOut.toNat else 0

theorem told_of_handles (hh : Handles behaviour source connection event next) :
    ∃ more, next.told = behaviour.told ++ more ∧ Tells source event more := by
  have hpu : ∀ (before : Behaviour Peer L) (act : Action Peer), before.told = behaviour.told →
      Tells source event act.event?.toList →
      ∃ more, (before.pushAction act).told = behaviour.told ++ more ∧ Tells source event more :=
    fun before act hb ht => ⟨_, hb ▸ told_pushAction before act, ht⟩
  cases hh with
  | reservationAccepted =>
    rename_i renewed _
    refine hpu _ _ rfl fun peer => ?_
    by_cases hp : source = peer <;> cases renewed <;> simp [HandlerEvent.isTimedOut, hp]
  | timedOut =>
    refine hpu _ _ rfl fun peer => ?_
    by_cases hp : source = peer <;> simp [HandlerEvent.isTimedOut, hp]
  | negotiationFailed =>
    refine hpu _ _ ((told_pushAction _ _).trans (append_nil _)) fun peer => ?_
    simp [HandlerEvent.isTimedOut]
  | circuitDenied | circuitDenyFailed =>
    rename_i circ _ _
    refine hpu _ _ (by cases circ <;> rfl) fun peer => ?_
    simp [HandlerEvent.isTimedOut]
  | _ =>
    refine hpu _ _ rfl fun peer => ?_
    simp [HandlerEvent.isTimedOut]

theorem isSome_of_handles (hh : Handles behaviour source connection event next)
    (hb : heldBefore later (event :: events) = some before) (hl : heldBefore later events = some true)
    (hs : before → (behaviour.reservation? source connection).isSome) :
    (next.reservation? source connection).isSome := by
  have hse : ∀ behaviour : Behaviour Peer L,
      ((behaviour.setReservation source connection .active).reservation? source connection).isSome := by
    intro behaviour
    rw [reservation?_setReservation, if_pos ⟨rfl, rfl⟩]
    rfl
  have hsa : heldBefore later events = some before → (behaviour.reservation? source connection).isSome :=
    fun hn => hs (Option.some.inj (hn.symm.trans hl))
  cases hh with
  | reserved | reservationAccepted => exact hse _
  | timedOut => cases (Option.ite_none_right_eq_some.1 hb).1.symm.trans hl
  | circuitDenied | circuitDenyFailed =>
    rename_i circ _ _
    cases circ <;> exact hsa hb
  | _ => exact hsa hb

/-- The user hears that a reservation is closed with every connection that is still known. -/
theorem told_onConnectionClosed (behaviour : Behaviour Peer L) (peer : Peer) (connection : ConnectionId) :
    ∃ more, (behaviour.onConnectionClosed peer connection).told = behaviour.told ++ more ∧ ∀ other,
      more.countP (·.opens other) = 0 ∧
      more.countP (·.ends other) =
        if peer = other then (behaviour.reservation? peer connection).isSome.toNat else 0 := by
  have hf : (behaviour.forgetConnection peer connection).told = behaviour.told ++
      if (behaviour.reservation? peer connection).isSome then [.reservationClosed peer] else [] := by
    unfold forgetConnection reservation? connectionsOf
    split
    · next hn =>
      rw [hn]
      exact (append_nil _).symm
    · next known hk =>
      rw [hk, Option.getD_some]
      dsimp only
      split_ifs
      · exact told_pushAction _ _
      · exact (append_nil _).symm
  unfold onConnectionClosed closeCircuits
  dsimp only [told]
  rw [filterMap_append, filterMap_map]
  refine ⟨_, (congrArg (· ++ _) hf).trans (append_assoc _ _ _), fun other => ?_⟩
  -- the circuits of the connection are closed with other events
  by_cases hp : peer = other <;> cases (behaviour.reservation? peer connection).isSome <;> simp [Function.comp_def, hp]

end Behaviour

namespace System

variable {system after : System Peer L} {connection : ConnectionId} {link changed : Link Peer}
  {given : List (List (Event Peer))} {input : Input Peer}

/-- The events that the user has been given, and those that wait for it. -/
def told (given : List (List (Event Peer))) (system : System Peer L) : List (Event Peer) :=
  given.flatten ++ system.behaviour.told

/-- The connections of a peer with a reservation that the behaviour has been told of. -/
def outstanding (links : OrdMap ConnectionId (Link Peer)) (peer : Peer) : Nat :=
  links.entries.countP fun entry => entry.2.peer = peer && entry.2.held = some true

/-- The reservations that the user hears of are those that end and those that are held. -/
structure Accounted (given : List (List (Event Peer))) (system : System Peer L) : Prop where
  wired : system.Wired
  tracked : ∀ connection link, system.links.get? connection = some link →
    ∃ held, link.held = some held ∧ (held → (system.behaviour.reservation? link.peer connection).isSome)
  matched : ∀ peer, (system.told given).countP (·.opens peer) =
    (system.told given).countP (·.ends peer) + outstanding system.links peer

section

variable {links : OrdMap ConnectionId (Link Peer)} {held : Bool} (hh : link.held = some held)
include hh

theorem weight_eq (peer : Peer) : (if (link.peer = peer && link.held = some true) then 1 else 0) =
    if link.peer = peer then held.toNat else 0 := by
  rw [hh]
  by_cases hp : link.peer = peer <;> cases held <;> simp [hp]

theorem outstanding_insert (connection : ConnectionId) (peer : Peer) :
    outstanding (links.insert connection link) peer =
      outstanding (links.erase connection) peer + if link.peer = peer then held.toNat else 0 :=
  (OrdMap.countP_insert _ _ _ _).trans (congrArg _ (weight_eq hh peer))

theorem outstanding_eq (hl : links.get? connection = some link) (peer : Peer) : outstanding links peer =
    outstanding (links.erase connection) peer + if link.peer = peer then held.toNat else 0 :=
  (OrdMap.countP_of_get? hl _).trans (congrArg _ (weight_eq hh peer))

end

variable {out : List (Event Peer)}

section

variable (hacc : Accounted given system)
include hacc

/-- A step of one connection, which tells the user as much as the connection has come to hold. -/
theorem Accounted.setLink {behaviour : Behaviour Peer L} {before now : Bool} (more : List (Event Peer))
    (hl : system.links.get? connection = some link)
    (hw : ({ system with behaviour }.setLink connection changed).Wired) (hp : changed.peer = link.peer)
    (hb : link.held = some before) (hn : changed.held = some now)
    (hs : now → (behaviour.reservation? link.peer connection).isSome)
    (hr : ∀ peer other, other ≠ connection →
      behaviour.reservation? peer other = system.behaviour.reservation? peer other)
    (ht : behaviour.told = system.behaviour.told ++ more)
    (hm : ∀ peer, more.countP (·.opens peer) + (if link.peer = peer then before.toNat else 0) =
      more.countP (·.ends peer) + if link.peer = peer then now.toNat else 0) :
    Accounted (given ++ [[]]) ({ system with behaviour }.setLink connection changed) := by
  refine ⟨hw, fun other found hf => ?_, fun peer => ?_⟩
  · rcases get?_setLink hf with ⟨rfl, rfl⟩ | ⟨hne, ho⟩
    · exact ⟨now, hn, hp ▸ hs⟩
    · exact hr _ _ hne ▸ hacc.tracked other found ho
  have hba := hacc.matched peer
  have hpe := hm peer
  rw [outstanding_eq hb hl] at hba
  simp only [System.told, System.setLink, ht, outstanding_insert hn, hp, flatten_append, flatten_singleton,
    append_nil, countP_append] at hba ⊢
  omega

theorem Accounted.actions {acts : List (Action Peer)}
    (hw : Wired { system with behaviour := { system.behaviour with queuedActions := acts } })
    (ht : system.behaviour.told = out ++ acts.filterMap Action.event?) :
    Accounted (given ++ [out]) { system with behaviour := { system.behaviour with queuedActions := acts } } := by
  refine ⟨hw, hacc.tracked, fun peer => ?_⟩
  have hb := hacc.matched peer
  rw [System.told, ht] at hb
  rwa [System.told, flatten_append, flatten_singleton, append_assoc]

theorem Accounted.establish (peer : Peer) (ep : ConnectedPoint Peer) :
    Accounted (given ++ [[]]) (system.establish peer ep) := by
  have hn : (Link.new peer ep).held = some false := by
    unfold Link.held Link.active Link.new
    split_ifs <;> rfl
  have hno : system.links.get? system.nextConnection = none := by
    by_contra hs
    obtain ⟨link, hl⟩ := Option.ne_none_iff_exists'.1 hs
    exact Nat.lt_irrefl _ (hacc.wired.known _ _ hl)
  refine ⟨hacc.wired.establish peer ep, fun other found hf => ?_, fun source => ?_⟩
  · rcases OrdMap.get?_insert_iff.1 hf with ⟨-, rfl⟩ | ⟨hne, ho⟩
    · exact ⟨false, hn, nofun⟩
    · have hk := reservation?_setReservation system.behaviour peer system.nextConnection .none found.peer other
      rw [if_neg fun hb => hne hb.2] at hk
      exact hk ▸ hacc.tracked other found ho
  · rw [System.told, flatten_append, flatten_singleton, append_nil]
    simp only [System.establish, outstanding_insert hn, OrdMap.erase_of_get?_none hno, Bool.toNat_false, ite_self]
    exact hacc.matched source

end

/-- A connection that is closed while the behaviour knows of it has a reservation. -/
def closesReserved (system : System Peer L) : Input Peer → Bool
  | .closed connection => (system.links.get? connection).all fun link =>
    link.alive || !link.toBehaviour.isEmpty ||
      (system.behaviour.reservation? link.peer connection).isNone || link.active
  | _ => true

theorem Accounted.closed (hacc : Accounted given system) (hl : system.links.get? connection = some link)
    (hd : link.alive = false) (he : link.toBehaviour = []) (hc : system.closesReserved (.closed connection)) :
    Accounted (given ++ [[]]) { system with
      behaviour := system.behaviour.onConnectionClosed link.peer connection
      links := system.links.erase connection } := by
  have hhe : link.held = some (system.behaviour.reservation? link.peer connection).isSome := by
    obtain ⟨held, hh, ht⟩ := hacc.tracked _ _ hl
    rw [Link.held, he, heldBefore, Option.some.injEq] at hh ⊢
    rw [closesReserved, hl, Option.all_some, hd, he, hh] at hc
    rw [hh]
    cases held with
    | true => exact (ht rfl).symm
    | false => simpa using hc
  refine ⟨hacc.wired.closed hl hd he, fun other found hf => ?_, fun peer => ?_⟩
  · obtain ⟨hne, ho⟩ := OrdMap.get?_erase_iff.1 hf
    have hk := reservation?_onConnectionClosed system.behaviour link.peer connection found.peer other
    rw [if_neg fun hb => hne hb.2] at hk
    exact hk ▸ hacc.tracked other found ho
  · obtain ⟨more, ht, hm⟩ := told_onConnectionClosed system.behaviour link.peer connection
    have hba := hacc.matched peer
    rw [outstanding_eq hhe hl] at hba
    simp only [System.told, ht, flatten_append, flatten_singleton, append_nil, countP_append, hm peer] at hba ⊢
    omega

theorem Accounted.step (hacc : Accounted given system)
    (hc : system.closesReserved input) (hs : SystemStep system input out after) :
    Accounted (given ++ [out]) after := by
  have hw := hacc.wired.step hs
  cases hs with
  | same => exact hacc.actions hw rfl
  | establish peer ep => exact hacc.establish peer ep
  | link hl hs =>
    obtain ⟨held, hh, ht⟩ := hacc.tracked _ _ hl
    have hsa := Link.held_of_step (hacc.wired.ok _ _ hl) hs
    exact hacc.setLink [] hl hw (Link.step_keeps hs).1 hh (hsa.trans hh) ht (fun _ _ _ => rfl) (append_nil _).symm
      fun _ => rfl
  | closed hl hd he => exact hacc.closed hl hd he hc
  | deliver hl he hh =>
    have hha := handles_of_ok hh
    obtain ⟨before, hb, ht⟩ := hacc.tracked _ _ hl
    rw [Link.held, he] at hb
    obtain ⟨now, hn, hba⟩ := heldBefore_cons hb
    obtain ⟨more, hm, hte⟩ := told_of_handles hha
    refine hacc.setLink more hl hw rfl (by rwa [Link.held, he]) hn ?_ ?_ hm fun peer => ?_
    · rintro rfl
      exact isSome_of_handles hha hb hn ht
    · exact fun peer other hne => hha.reservation? peer other fun hb => hne hb.2
    rw [(hte peer).1, (hte peer).2]
    split_ifs
    · exact hba
    · rfl
  | generate ha =>
    refine hacc.actions hw ?_
    rw [Behaviour.told, ha]
    rfl
  | notify ha =>
    rename_i cmd acts
    have hno : system.behaviour.told = acts.filterMap Action.event? := by
      rw [Behaviour.told, ha]
      rfl
    rcases send_cases { system with behaviour := { system.behaviour with queuedActions := acts } } _ cmd
      with hsa | ⟨link, hl, -, hse⟩
    · rw [hsa] at hw ⊢
      exact hacc.actions hw hno
    rw [hse] at hw ⊢
    have hg : system.links.get? _ = some link := hl
    obtain ⟨held, hh, ht⟩ := hacc.tracked _ _ hg
    exact hacc.setLink [] hg hw rfl hh hh ht (fun _ _ _ => rfl) (hno.symm.trans (append_nil _).symm) fun _ => rfl

/-- In every run of a relay server in which only connections with a reservation are closed while the behaviour knows
them, each reservation that a peer was granted is closed or times out, or a connection of the peer still holds it. -/
theorem reservations_matched (localPeerId : Peer) (config : Config Peer L) (addrs : List (Multiaddr Peer))
    (limiters limiters' : List L) (inputs : List (Input Peer)) (last : System Peer L)
    (hclose : Along step (fun system input => system.closesReserved input)
      (new (.new localPeerId config addrs limiters limiters')) inputs)
    (hrun : run step (new (.new localPeerId config addrs limiters limiters')) inputs = .ok (given, last))
    (peer : Peer) : (last.told given).countP (·.opens peer) =
      (last.told given).countP (·.ends peer) + outstanding last.links peer := by
  have hs : ∀ (_ : List (Input Peer)) given (system : System Peer L) input out next, Accounted given system →
      system.closesReserved input → system.step input = .ok (out, next) → Accounted (given ++ [out]) next :=
    fun _ given system input out next hacc hc hok => hacc.step hc (step_cases hok)
  have hn : Accounted [] (new (.new localPeerId config addrs limiters limiters')) :=
    ⟨(sound_new localPeerId config addrs limiters limiters').wired, nofun, fun _ => rfl⟩
  exact (run_trace hs [] [] hn hclose hrun).matched peer

/-- A reservation is accepted and closed with its connection. -/
def closeInputs : List (Input Nat) :=
  .establish 1 (.listener [] []) :: reserveInputs 0 ++ acceptInputs 0 ++ [.disconnect 0, .closed 0, .pollBehaviour]

theorem reservations_matched_closed :
    Along step (fun system input => system.closesReserved input) unlimited closeInputs ∧
    ∃ given last, run step unlimited closeInputs = .ok (given, last) ∧
      given.flatten = [.reservationReqAccepted 1 false, .reservationClosed 1] ∧
      (last.told given).countP (·.opens 1) = (last.told given).countP (·.ends 1) + outstanding last.links 1 :=
  have hc : Along step (fun system input => system.closesReserved input) unlimited closeInputs := by decide +kernel
  ⟨hc, _, _, rfl, rfl, reservations_matched 0 _ [] [] [] _ _ hc rfl 1⟩

/-- A peer that connects and disconnects has its reservation closed without ever asking for one. -/
theorem closed_without_reservation : ∃ given last,
    run step unlimited [.establish 1 (.listener [] []), .disconnect 0, .closed 0, .pollBehaviour] = .ok (given, last) ∧
      given.flatten = [.reservationClosed 1] ∧
      (last.told given).countP (·.opens 1) = 0 ∧ (last.told given).countP (·.ends 1) = 1 :=
  ⟨_, _, rfl, rfl, rfl, rfl⟩

end System
end RustLibp2p.Relay
