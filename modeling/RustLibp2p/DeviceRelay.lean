import Mathlib.Algebra.Order.Ring.Nat
import RustLibp2p.Transition

/-! The part of the camera's event loop that keeps it reachable through its relays. The swarm is modelled
as far as the loop sees it: how many connections to a peer are established, which dials are in flight and
which listeners exist. -/

namespace RustLibp2p.Camera.DeviceLoop

/-- The components of an address that the loop looks at. -/
inductive Protocol (Peer : Type) where
  | p2p (peer : Peer)
  | p2pCircuit
  | other (name : String)

abbrev Multiaddr (Peer : Type) := List (Protocol Peer)

structure RelayState (Peer : Type) where
  addr : Multiaddr Peer
  peerId : Peer
  reservationId : Option Nat
  connected : Bool
  reconnectAttempt : Nat
  dialPending : Bool
  /-- The delay in seconds that an armed timer was set to. -/
  reconnectTimer : Option Nat

variable {Peer : Type}

namespace RelayState

def peerOf (addr : Multiaddr Peer) : Option Peer :=
  addr.findSome? fun protocol =>
    match protocol with
    | .p2p peer => some peer
    | _ => none

/-- The state of a configured relay; there is none for an address without a peer id, on which the
program stops. -/
def ofAddr (addr : Multiaddr Peer) : Option (RelayState Peer) :=
  (peerOf addr).map fun peerId =>
    { addr := addr
      peerId := peerId
      reservationId := none
      connected := false
      reconnectAttempt := 0
      dialPending := false
      reconnectTimer := none }

/-- Three seconds, doubled with every attempt after the first and at most sixty. -/
def reconnectDelay (state : RelayState Peer) : Nat := min (3 * 2 ^ min (state.reconnectAttempt - 1) 5) 60

/-- Another attempt has failed: wait before the next. -/
def armTimer (state : RelayState Peer) : RelayState Peer :=
  let state := { state with reconnectAttempt := state.reconnectAttempt + 1 }
  { state with reconnectTimer := some state.reconnectDelay }

end RelayState

/-- An outgoing connection attempt: the peer it is for, if the dialled address says so. -/
structure Dial (Peer : Type) where
  peer : Option Peer
  addr : Multiaddr Peer

structure Swarm (Peer : Type) where
  established : Peer → Nat
  dials : List (Dial Peer)
  listeners : List Nat
  nextListener : Nat

namespace Swarm

/-- `DialOpts::get_peer_id`: the peer id at the very end of the address. -/
def dialPeer (addr : Multiaddr Peer) : Option Peer :=
  match addr.getLast? with
  | some (.p2p peer) => some peer
  | _ => none

def init : Swarm Peer := ⟨fun _ => 0, [], [], 0⟩

/-- `listen_on`, if the transports take the address. -/
def listenOn (swarm : Swarm Peer) (accepts : Bool) : Option Nat × Swarm Peer :=
  if accepts then
    (some swarm.nextListener, { swarm with
        listeners := swarm.nextListener :: swarm.listeners
        nextListener := swarm.nextListener + 1 })
  else (none, swarm)

/-- `dial` of an address goes ahead whatever connections and dials there are. It fails at once when a
behaviour denies it or no address is left (`accepts` is false). -/
def dial (swarm : Swarm Peer) (addr : Multiaddr Peer) (accepts : Bool) : Option (Swarm Peer) :=
  if accepts then some { swarm with dials := swarm.dials ++ [⟨dialPeer addr, addr⟩] } else none

end Swarm

structure Device (Peer : Type) where
  relays : List (RelayState Peer)
  swarm : Swarm Peer

/-- What the swarm and the clock report. The Booleans are the outcomes of the calls that the loop makes
in return. -/
inductive Input (Peer : Type) where
  /-- A connection to `peer`, by a dial in flight or from the peer. -/
  | connectionEstablished (peer : Peer) (dial : Option Nat) (listens : Bool)
  | connectionClosed (peer : Peer)
  /-- A dial in flight fails. For a dial without a peer, `reported` is the peer that the event names. -/
  | outgoingConnectionError (dial : Nat) (reported : Option Peer)
  /-- A behaviour dials, under conditions of its own. -/
  | behaviourDials (dial : Dial Peer)
  /-- The timer of this relay is the first of the elapsed ones. -/
  | timerElapsed (relay : Nat) (accepts : Bool)
  | reservationReqAccepted (peer : Peer)
  /-- A listener is closed, with or without an error. -/
  | listenerClosed (listener : Nat) (error : Bool) (listens : Bool)

/-- Change the first element that fits, as `iter_mut().find(..)` does. -/
def updateFirst {α : Type} (fits : α → Bool) (change : α → α) : List α → List α
  | [] => []
  | item :: items => if fits item then change item :: items else item :: updateFirst fits change items

namespace Device

variable [DecidableEq Peer]

section

variable (device : Device Peer) (peer : Peer)

def relayOf : Option (RelayState Peer) := device.relays.find? fun state => state.peerId == peer

def updateRelay (change : RelayState Peer → RelayState Peer) : Device Peer :=
  { device with relays := updateFirst (fun state => state.peerId == peer) change device.relays }

/-- The dials before the loop. A dial that fails at once is only logged. -/
def dialRelays (swarm : Swarm Peer) (configured : List (RelayState Peer × Bool)) : Swarm Peer :=
  configured.foldl (fun swarm relay => (swarm.dial relay.1.addr relay.2).getD swarm) swarm

/-- The start of the loop for the configured addresses, each with the outcome of its first dial. -/
def start (addrs : List (Multiaddr Peer × Bool)) : Option (Device Peer) :=
  (addrs.mapM fun entry => (RelayState.ofAddr entry.1).map fun state => (state, entry.2)).map
    fun configured => { relays := configured.map Prod.fst, swarm := dialRelays .init configured }

def onEstablished (listens : Bool) : Device Peer :=
  match device.relayOf peer with
  | none => device
  | some state =>
    let (reservationId, swarm) :=
      if state.reservationId.isNone then device.swarm.listenOn listens
      else (state.reservationId, device.swarm)
    { device.updateRelay peer (fun state =>
        { state with
          reconnectAttempt := 0
          dialPending := false
          reconnectTimer := none
          reservationId := reservationId }) with
      swarm := swarm }

def onClosed : Device Peer :=
  if device.swarm.established peer = 0 then
    device.updateRelay peer fun state =>
      { state with connected := false, reservationId := none, dialPending := false }.armTimer
  else device

def onDialError (peer : Option Peer) : Device Peer :=
  match peer with
  | none => device
  | some peer => device.updateRelay peer fun state => { state with dialPending := false }.armTimer

def onTimer (index : Nat) (accepts : Bool) : Device Peer :=
  match device.relays[index]? with
  | none => device
  | some state =>
    if state.reconnectTimer.isNone then device
    else
      let state := { state with reconnectTimer := none }
      match device.swarm.dial state.addr accepts with
      | some swarm => { relays := device.relays.set index { state with dialPending := true }, swarm := swarm }
      | none => { device with relays := device.relays.set index state.armTimer }

def onReservationReqAccepted : Device Peer :=
  device.updateRelay peer fun state =>
    if state.connected then state
    else { state with connected := true, reconnectAttempt := 0, dialPending := false, reconnectTimer := none }

/-- The arm matches only a listener that was closed with an error. -/
def onListenerClosed (listener : Nat) (error listens : Bool) : Device Peer :=
  if !error then device
  else
    match device.relays.find? fun state => state.reservationId == some listener with
    | none => device
    | some state =>
      let (reservationId, swarm) :=
        if device.swarm.established state.peerId = 0 then (none, device.swarm)
        else device.swarm.listenOn listens
      { relays := updateFirst (fun state => state.reservationId == some listener) (fun state =>
          { state with reservationId := reservationId, connected := false, dialPending := false })
          device.relays
        swarm := swarm }

/-- One event. What the swarm cannot report in its state changes nothing. -/
def step : Input Peer → Device Peer
  | .connectionEstablished peer none listens =>
    onEstablished { device with swarm := { device.swarm with
      established := Function.update device.swarm.established peer (device.swarm.established peer + 1) } }
      peer listens
  | .connectionEstablished peer (some index) listens =>
    match device.swarm.dials[index]? with
    | none => device
    | some dial =>
      if dial.peer = none ∨ dial.peer = some peer then
        onEstablished { device with swarm := { device.swarm with
          established := Function.update device.swarm.established peer (device.swarm.established peer + 1)
          dials := device.swarm.dials.eraseIdx index } } peer listens
      else device
  | .connectionClosed peer =>
    if device.swarm.established peer = 0 then device
    else onClosed { device with swarm := { device.swarm with
      established := Function.update device.swarm.established peer (device.swarm.established peer - 1) } }
      peer
  | .outgoingConnectionError index reported =>
    match device.swarm.dials[index]? with
    | none => device
    | some dial => onDialError { device with swarm := { device.swarm with
        dials := device.swarm.dials.eraseIdx index } } (dial.peer.or reported)
  | .behaviourDials dial => { device with swarm := { device.swarm with dials := device.swarm.dials ++ [dial] } }
  | .timerElapsed index accepts => device.onTimer index accepts
  | .reservationReqAccepted peer =>
    if device.swarm.established peer = 0 then device else device.onReservationReqAccepted peer
  | .listenerClosed listener error listens =>
    if listener ∈ device.swarm.listeners then
      onListenerClosed { device with swarm := { device.swarm with
        listeners := device.swarm.listeners.erase listener } } listener error listens
    else device

/-- The event loop as a machine that answers nothing. -/
def tick (input : Input Peer) : Unit × Device Peer := ((), device.step input)

end
end Device

/-! The camera's event loop gives up no relay: a configured relay is connected, being dialled or waiting
for its timer. There is a gap: a first dial that fails at once, or a dial whose failure is reported
without the relay's peer id, arms no timer. -/
open Transition List Swarm Function

/-! ### Changing the first element that fits -/

section UpdateFirst

variable {α : Type} (fits : α → Bool) (change : α → α) {items : List α} {item : α}

theorem map_updateFirst {β : Type} (key : α → β) (hk : ∀ item, key (change item) = key item)
    (items : List α) : (updateFirst fits change items).map key = items.map key := by
  induction items with
  | nil => rfl
  | cons first items ih =>
    unfold updateFirst
    split
    · simp [hk]
    · simp [ih]

theorem mem_updateFirst_of_not_fits (hmem : item ∈ items) (hf : fits item = false) :
    item ∈ updateFirst fits change items := by
  induction items with
  | nil => cases hmem
  | cons first items ih =>
    unfold updateFirst
    rcases mem_cons.1 hmem with rfl | hr
    · rw [hf]
      exact mem_cons_self
    · split
      · exact mem_cons_of_mem _ hr
      · exact mem_cons_of_mem _ (ih hr)

theorem exists_mem_updateFirst (hf : ∃ item ∈ items, fits item) :
    ∃ item ∈ items, fits item ∧ change item ∈ updateFirst fits change items := by
  induction items with
  | nil =>
    obtain ⟨item, hmem, -⟩ := hf
    cases hmem
  | cons first items ih =>
    unfold updateFirst
    by_cases hfi : fits first
    · exact ⟨first, mem_cons_self, hfi, by rw [if_pos hfi]; exact mem_cons_self⟩
    have hr : ∃ item ∈ items, fits item := by
      obtain ⟨item, hmem, hi⟩ := hf
      rcases mem_cons.1 hmem with rfl | hr
      · exact absurd hi hfi
      · exact ⟨item, hr, hi⟩
    obtain ⟨found, hmem, hfo, hc⟩ := ih hr
    rw [if_neg hfi]
    exact ⟨found, mem_cons_of_mem _ hmem, hfo, mem_cons_of_mem _ hc⟩

end UpdateFirst

/-! ### Relays that are attended to -/

def TimerArmed (relays : List (RelayState Peer)) (peer : Peer) : Prop :=
  ∃ state ∈ relays, state.peerId = peer ∧ state.reconnectTimer.isSome

variable {relays : List (RelayState Peer)} {peer : Peer} {change : RelayState Peer → RelayState Peer} {α β : Type}
  {items : List α} {index : Nat}

theorem timerArmed_congr {relays' : List (RelayState Peer)}
    (hk : relays.map (fun state => (state.peerId, state.reconnectTimer)) =
      relays'.map fun state => (state.peerId, state.reconnectTimer)) :
    TimerArmed relays peer ↔ TimerArmed relays' peer := by
  have hs : ∀ relays : List (RelayState Peer), TimerArmed relays peer ↔
      ∃ key ∈ relays.map (fun state => (state.peerId, state.reconnectTimer)), key.1 = peer ∧ key.2.isSome := by
    intro relays
    simp [TimerArmed]
  rw [hs, hs, hk]

/-- The relay is connected, being dialled, or waits for its timer. -/
def Attended (device : Device Peer) (peer : Peer) : Prop :=
  0 < device.swarm.established peer ∨ (∃ dial ∈ device.swarm.dials, dial.peer = some peer) ∨
    TimerArmed device.relays peer

theorem Attended.imp {device next : Device Peer} (ha : Attended device peer)
    (hup : 0 < device.swarm.established peer → 0 < next.swarm.established peer)
    (hd : ∀ dial ∈ device.swarm.dials, dial.peer = some peer → dial ∈ next.swarm.dials)
    (har : TimerArmed device.relays peer → TimerArmed next.relays peer) : Attended next peer := by
  refine Or.imp hup (Or.imp ?_ har) ha
  exact fun ⟨dial, hdi, heq⟩ => ⟨dial, hd dial hdi heq, heq⟩

variable [DecidableEq Peer]

theorem timerArmed_updateFirst_of_ne {other : Peer} (hne : peer ≠ other) (ha : TimerArmed relays peer) :
    TimerArmed (updateFirst (fun state => state.peerId == other) change relays) peer := by
  obtain ⟨state, hmem, hp, ht⟩ := ha
  refine ⟨state, mem_updateFirst_of_not_fits _ _ hmem ?_, hp, ht⟩
  rw [hp]
  exact beq_eq_false_iff_ne.2 hne

theorem timerArmed_updateFirst_self (hp : ∃ state ∈ relays, state.peerId = peer)
    (hk : ∀ state, (change state).peerId = state.peerId) (ha : ∀ state, (change state).reconnectTimer.isSome) :
    TimerArmed (updateFirst (fun state => state.peerId == peer) change relays) peer := by
  obtain ⟨state, hmem, heq⟩ := hp
  obtain ⟨found, -, hf, hc⟩ := exists_mem_updateFirst
    (fun state : RelayState Peer => state.peerId == peer) change ⟨state, hmem, beq_iff_eq.2 heq⟩
  exact ⟨change found, hc, (hk found).trans (beq_iff_eq.1 hf), ha found⟩

theorem map_set_of_eq (key : α → β) {item item' : α} (hi : items[index]? = some item) (hk : key item' = key item) :
    (items.set index item').map key = items.map key := by
  ext position
  by_cases hpos : index = position
  · subst hpos
    have hb := (List.getElem?_eq_some_iff.1 hi).1
    simp only [getElem?_map, getElem?_set_self hb, hi, Option.map_some, hk]
  · simp [getElem?_set_ne hpos]

theorem mem_eraseIdx_of_ne {item other : α}
    (hi : items[index]? = some item) (hoth : other ∈ items) (hne : other ≠ item) :
    other ∈ items.eraseIdx index := by
  obtain ⟨pos, hpos⟩ := getElem?_of_mem hoth
  rw [mem_eraseIdx_iff_getElem?]
  refine ⟨pos, ?_, hpos⟩
  rintro rfl
  rw [hi] at hpos
  exact hne (Option.some.inj hpos).symm

theorem mem_of_mapM_eq_some {f : α → Option β} {results : List β}
    (hmap : items.mapM f = some results) {result : β} (hr : result ∈ results) :
    ∃ item ∈ items, f item = some result := by
  induction items generalizing results with
  | nil =>
    cases hmap
    cases hr
  | cons first items ih =>
    simp only [mapM_cons, Option.bind_eq_bind, Option.bind_eq_some_iff, Option.pure_def, Option.some.injEq] at hmap
    obtain ⟨_, hh, _, ht, rfl⟩ := hmap
    rcases mem_cons.1 hr with rfl | hre
    · exact ⟨first, mem_cons_self, hh⟩
    · obtain ⟨item, hi, heq⟩ := ih ht hre
      exact ⟨item, mem_cons_of_mem _ hi, heq⟩

def Device.keys (device : Device Peer) : List (Multiaddr Peer × Peer) :=
  device.relays.map fun state => (state.addr, state.peerId)

namespace Device

section

variable (device : Device Peer) (peer : Peer)

theorem updateRelay_keys {change : RelayState Peer → RelayState Peer}
    (hk : ∀ state, ((change state).addr, (change state).peerId) = (state.addr, state.peerId)) :
    (device.updateRelay peer change).keys = device.keys :=
  map_updateFirst _ _ _ hk device.relays

theorem onEstablished_keys (listens : Bool) : (device.onEstablished peer listens).keys = device.keys := by
  unfold onEstablished
  split
  · rfl
  · exact device.updateRelay_keys peer fun _ => rfl

theorem onDialError_keys (peer : Option Peer) : (device.onDialError peer).keys = device.keys := by
  cases peer with
  | none => rfl
  | some peer => exact device.updateRelay_keys peer fun _ => rfl

omit [DecidableEq Peer] in
theorem onTimer_keys (index : Nat) (accepts : Bool) : (device.onTimer index accepts).keys = device.keys := by
  unfold onTimer
  cases hs : device.relays[index]? with
  | none => rfl
  | some =>
    dsimp only
    split
    · rfl
    split
    all_goals exact map_set_of_eq _ hs rfl

end

omit [DecidableEq Peer] in
/-- A closed listener concerns the first relay that has it, and only if it was closed with an error. -/
theorem onListenerClosed_cases (device : Device Peer) (listener : Nat) (err listens : Bool) :
    (device.onListenerClosed listener err listens = device ∧
      (err → ∀ state ∈ device.relays, state.reservationId ≠ some listener)) ∨
    ∃ state, device.relays.find? (fun state => state.reservationId == some listener) = some state ∧
      ∃ granted, granted = (if device.swarm.established state.peerId = 0 then (none, device.swarm)
          else device.swarm.listenOn listens) ∧
        device.onListenerClosed listener err listens =
          { relays := updateFirst (fun state => state.reservationId == some listener) (fun state =>
              { state with reservationId := granted.1, connected := false, dialPending := false })
              device.relays
            swarm := granted.2 } := by
  unfold onListenerClosed
  cases err with
  | false => exact .inl ⟨rfl, nofun⟩
  | true =>
    cases hf : device.relays.find? fun state => state.reservationId == some listener with
    | none =>
      refine .inl ⟨rfl, fun _ state hs heq => ?_⟩
      exact find?_eq_none.1 hf state hs (beq_iff_eq.2 heq)
    | some state => exact .inr ⟨state, rfl, _, rfl, rfl⟩

omit [DecidableEq Peer] in
theorem onListenerClosed_keys (device : Device Peer) (listener : Nat) (err listens : Bool) :
    (device.onListenerClosed listener err listens).keys = device.keys := by
  rcases device.onListenerClosed_cases listener err listens with
    ⟨heq, -⟩ | ⟨state, -, granted, -, heq⟩
  · rw [heq]
  · rw [heq]
    exact map_updateFirst _ _ _ (by intro state; rfl) device.relays

theorem step_keys (device : Device Peer) (inp : Input Peer) : (device.step inp).keys = device.keys := by
  cases inp with
  | connectionEstablished peer dial listens =>
    cases dial with
    | none => exact onEstablished_keys _ peer listens
    | some =>
      simp only [step]
      split
      · rfl
      split
      · exact onEstablished_keys _ peer listens
      · rfl
  | connectionClosed peer =>
    simp only [step, onClosed]
    split
    · rfl
    split
    · exact updateRelay_keys _ peer fun _ => rfl
    · rfl
  | outgoingConnectionError =>
    simp only [step]
    split
    · rfl
    · exact onDialError_keys _ _
  | behaviourDials => rfl
  | timerElapsed index accepts => exact onTimer_keys device index accepts
  | reservationReqAccepted peer =>
    simp only [step]
    split
    · rfl
    · refine device.updateRelay_keys peer fun state => ?_
      split <;> rfl
  | listenerClosed listener err listens =>
    simp only [step]
    split
    · exact onListenerClosed_keys _ listener err listens
    · rfl

theorem onEstablished_swarm (device : Device Peer) (peer : Peer) (listens : Bool) :
    (device.onEstablished peer listens).swarm.established = device.swarm.established ∧
      (device.onEstablished peer listens).swarm.dials = device.swarm.dials := by
  unfold onEstablished
  split
  · exact ⟨rfl, rfl⟩
  dsimp only
  split
  · cases listens <;> exact ⟨rfl, rfl⟩
  · exact ⟨rfl, rfl⟩

variable {other : Peer} {device : Device Peer} {dial : Dial Peer} {swarm : Swarm Peer} {addr : Multiaddr Peer}
  {addrs : List (Multiaddr Peer × Bool)}

theorem onEstablished_timerArmed (device : Device Peer) (hne : other ≠ peer) (listens : Bool)
    (ha : TimerArmed device.relays other) : TimerArmed (device.onEstablished peer listens).relays other := by
  unfold onEstablished
  split
  · exact ha
  · exact timerArmed_updateFirst_of_ne hne ha

theorem attended_established {dials : List (Dial Peer)}
    (hd : ∀ dial ∈ device.swarm.dials, dial.peer = some other → other ≠ peer → dial ∈ dials) (listens : Bool)
    (ha : Attended device other) : Attended (onEstablished { device with swarm := { device.swarm with
      established := update device.swarm.established peer (device.swarm.established peer + 1)
      dials } } peer listens) other := by
  by_cases hp : other = peer
  · subst hp
    left
    rw [(onEstablished_swarm _ _ _).1]
    show 0 < update device.swarm.established other _ other
    rw [update_self]
    omega
  · refine ha.imp (fun hup => ?_) (fun dial hdi heq => ?_) fun har =>
      onEstablished_timerArmed _ hp listens har
    · rw [(onEstablished_swarm _ _ _).1]
      show 0 < update device.swarm.established peer _ other
      rwa [update_of_ne hp]
    · rw [(onEstablished_swarm _ _ _).2]
      exact hd dial hdi heq hp

section

variable (hoth : ∃ state ∈ device.relays, state.peerId = other)
include hoth

theorem attended_closed (hup : device.swarm.established peer ≠ 0)
    (ha : Attended device other) : Attended (onClosed { device with swarm := { device.swarm with
      established := update device.swarm.established peer (device.swarm.established peer - 1) } }
      peer) other := by
  unfold onClosed
  split
  · rename_i hz
    by_cases hp : other = peer
    · subst hp
      exact .inr (.inr (timerArmed_updateFirst_self hoth (fun _ => rfl) fun _ => rfl))
    · refine ha.imp (fun hup => ?_) (fun _ hd _ => hd) (timerArmed_updateFirst_of_ne hp)
      show 0 < update device.swarm.established peer _ other
      rwa [update_of_ne hp]
  · rename_i hs
    refine ha.imp (fun hoth => ?_) (fun _ hd _ => hd) id
    show 0 < update device.swarm.established peer _ other
    by_cases hp : other = peer
    · subst hp
      exact Nat.pos_of_ne_zero hs
    · rwa [update_of_ne hp]

theorem attended_dialError
    (hd : device.swarm.dials[index]? = some dial) (reported : Option Peer) (ha : Attended device other) :
    Attended (onDialError { device with swarm := { device.swarm with
      dials := device.swarm.dials.eraseIdx index } } (dial.peer.or reported)) other := by
  -- The event arms the timer of the peer it names; another relay keeps its dial and its timer.
  by_cases hn : dial.peer.or reported = some other
  · rw [hn]
    exact .inr (.inr (timerArmed_updateFirst_self hoth (fun _ => rfl) fun _ => rfl))
  have hdi : ∀ found ∈ device.swarm.dials, found.peer = some other →
      found ∈ device.swarm.dials.eraseIdx index := by
    intro found hf heq
    refine mem_eraseIdx_of_ne hd hf ?_
    rintro rfl
    exact hn (by rw [heq]; rfl)
  cases he : dial.peer.or reported with
  | none => exact ha.imp id hdi id
  | some peer =>
    have hp : other ≠ peer := fun heq => hn (heq ▸ he)
    exact ha.imp id hdi (timerArmed_updateFirst_of_ne hp)

end

omit [DecidableEq Peer] in
theorem Swarm.dial_eq_some {next : Swarm Peer} {accepts : Bool} (hd : swarm.dial addr accepts = some next) :
    next = { swarm with dials := swarm.dials ++ [⟨dialPeer addr, addr⟩] } := by
  unfold dial at hd
  split at hd
  · exact (Option.some.inj hd).symm
  · cases hd

omit [DecidableEq Peer] in
theorem timerArmed_set_of_ne {relays : List (RelayState Peer)} {state st' : RelayState Peer}
    (hs : relays[index]? = some state) (hne : peer ≠ state.peerId)
    (ha : TimerArmed relays peer) : TimerArmed (relays.set index st') peer := by
  obtain ⟨found, hmem, hp, ht⟩ := ha
  obtain ⟨position, hpos⟩ := getElem?_of_mem hmem
  have hoth : index ≠ position := by
    rintro rfl
    rw [hs] at hpos
    cases hpos
    exact hne hp.symm
  exact ⟨found, mem_of_getElem? ((getElem?_set_ne hoth).trans hpos), hp, ht⟩

theorem attended_timer
    (ha : ∀ state ∈ device.relays, dialPeer state.addr = some state.peerId) (index : Nat) (accepts : Bool)
    (hat : Attended device other) : Attended (device.onTimer index accepts) other := by
  unfold onTimer
  cases hs : device.relays[index]? with
  | none => exact hat
  | some state =>
    have hb := (List.getElem?_eq_some_iff.1 hs).1
    dsimp only
    split
    · exact hat
    cases hd : device.swarm.dial state.addr accepts with
    | none =>
      refine hat.imp id (fun _ hd _ => hd) fun har => ?_
      by_cases hp : other = state.peerId
      · exact ⟨_, mem_set hb _, hp.symm, rfl⟩
      · exact timerArmed_set_of_ne hs hp har
    | some =>
      rw [Swarm.dial_eq_some hd]
      rcases hat with hup | ⟨dial, hf, heq⟩ | har
      · exact .inl hup
      · exact .inr (.inl ⟨dial, mem_append_left _ hf, heq⟩)
      by_cases hp : other = state.peerId
      · refine .inr (.inl ⟨_, mem_append_right _ mem_cons_self, ?_⟩)
        rw [hp]
        exact ha state (mem_of_getElem? hs)
      · exact .inr (.inr (timerArmed_set_of_ne hs hp har))

omit [DecidableEq Peer] in
theorem attended_listenerClosed {listeners : List Nat} {listener : Nat}
    {err listens : Bool} (ha : Attended device other) :
    Attended (onListenerClosed { device with swarm := { device.swarm with listeners } }
      listener err listens) other := by
  rcases onListenerClosed_cases { device with swarm := { device.swarm with listeners } }
    listener err listens with ⟨heq, -⟩ | ⟨state, -, granted, hg, heq⟩
  · rw [heq]
    exact ha
  have hs : granted.2.established = device.swarm.established ∧ granted.2.dials = device.swarm.dials := by
    rw [hg]
    split
    · exact ⟨rfl, rfl⟩
    · cases listens <;> exact ⟨rfl, rfl⟩
  rw [heq]
  unfold Attended
  rw [hs.1, hs.2]
  refine ha.imp_right (.imp_right (timerArmed_congr ?_).1)
  exact (map_updateFirst _ _ _ (by intro state; rfl) device.relays).symm

/-- No event gives up a configured relay, provided that dials of relays are reported under their peer
id. -/
theorem attended_step (ha : ∀ state ∈ device.relays, dialPeer state.addr = some state.peerId) (inp : Input Peer)
    (hoth : ∃ state ∈ device.relays, state.peerId = other)
    (hat : Attended device other) : Attended (device.step inp) other := by
  cases inp with
  | connectionEstablished peer dial listens =>
    cases dial with
    | none => exact attended_established (fun dial hd _ _ => hd) listens hat
    | some index =>
      simp only [step]
      cases hd : device.swarm.dials[index]? with
      | none => exact hat
      | some dial =>
        dsimp only
        split
        · rename_i hp
          refine attended_established (fun found hf heq hne => ?_) listens hat
          apply mem_eraseIdx_of_ne hd hf
          rintro rfl
          rw [heq] at hp
          rcases hp with hn | hs
          · cases hn
          · exact hne (Option.some.inj hs)
        · exact hat
  | connectionClosed peer =>
    simp only [step]
    split
    · exact hat
    · rename_i hup
      exact attended_closed hoth hup hat
  | outgoingConnectionError index reported =>
    simp only [step]
    cases hd : device.swarm.dials[index]? with
    | none => exact hat
    | some => exact attended_dialError hoth hd reported hat
  | behaviourDials => exact hat.imp id (fun _ hd _ => mem_append_left _ hd) id
  | timerElapsed index accepts => exact attended_timer ha index accepts hat
  | reservationReqAccepted peer =>
    simp only [step]
    split
    · exact hat
    rename_i hup
    by_cases hp : other = peer
    · subst hp
      exact .inl (Nat.pos_of_ne_zero hup)
    · exact hat.imp id (fun _ hd _ => hd) (timerArmed_updateFirst_of_ne hp)
  | listenerClosed =>
    simp only [step]
    split
    · exact attended_listenerClosed hat
    · exact hat

section
omit [DecidableEq Peer]

theorem dial_dials (addr : Multiaddr Peer) (accepts : Bool)
    (hd : dial ∈ swarm.dials) : dial ∈ ((swarm.dial addr accepts).getD swarm).dials := by
  cases hn : swarm.dial addr accepts with
  | none => exact hd
  | some =>
    rw [Option.getD_some, Swarm.dial_eq_some hn]
    exact mem_append_left _ hd

theorem dialRelays_dials (cfg : List (RelayState Peer × Bool)) (hd : dial ∈ swarm.dials) : dial ∈
    (dialRelays swarm cfg).dials := by
  induction cfg generalizing swarm with
  | nil => exact hd
  | cons first cfg ih => exact ih (dial_dials first.1.addr first.2 hd)

theorem dialRelays_accepted {cfg : List (RelayState Peer × Bool)}
    (hc : ∀ e ∈ cfg, e.2 ∧ dialPeer e.1.addr = some e.1.peerId) {e : RelayState Peer × Bool}
    (he : e ∈ cfg) : ∃ dial ∈ (dialRelays swarm cfg).dials, dial.peer = some e.1.peerId := by
  induction cfg generalizing swarm with
  | nil => cases he
  | cons first cfg ih =>
    obtain ⟨ha, hp⟩ := hc first mem_cons_self
    rcases mem_cons.1 he with rfl | hr
    · refine ⟨⟨dialPeer e.1.addr, e.1.addr⟩, dialRelays_dials cfg ?_, hp⟩
      dsimp only
      rw [ha]
      exact mem_append_right _ mem_cons_self
    · exact ih (fun e he => hc e (mem_cons_of_mem _ he)) hr

theorem start_eq_some (hs : start addrs = some device) :
    ∃ cfg : List (RelayState Peer × Bool), device.relays = cfg.map Prod.fst ∧
      device.swarm = dialRelays .init cfg ∧
      ∀ e ∈ cfg, (e.1.addr, e.2) ∈ addrs ∧
        RelayState.peerOf e.1.addr = some e.1.peerId ∧ e.1.reservationId = none := by
  obtain ⟨cfg, hmap, rfl⟩ := Option.map_eq_some_iff.1 hs
  refine ⟨cfg, rfl, rfl, fun e he => ?_⟩
  obtain ⟨_, hg, he⟩ := mem_of_mapM_eq_some hmap he
  obtain ⟨_, hst, rfl⟩ := Option.map_eq_some_iff.1 he
  obtain ⟨_, hp, rfl⟩ := Option.map_eq_some_iff.1 hst
  exact ⟨hg, hp, rfl⟩

/-- The relays are as configured, and none of them has been given up. -/
structure Upkeep (keys : List (Multiaddr Peer × Peer)) (device : Device Peer) : Prop where
  keys_eq : device.keys = keys
  dialled : ∀ key ∈ keys, dialPeer key.1 = some key.2
  attended : ∀ key ∈ keys, Attended device key.2

theorem upkeep_start (ha : ∀ e ∈ addrs, e.2 ∧ dialPeer e.1 = RelayState.peerOf e.1)
    (hs : start addrs = some device) : Upkeep device.keys device := by
  obtain ⟨cfg, hr, hsw, hg⟩ := start_eq_some hs
  have hd : ∀ e ∈ cfg, e.2 ∧ dialPeer e.1.addr = some e.1.peerId := by
    intro e he
    obtain ⟨hmem, hp, -⟩ := hg e he
    exact ⟨(ha _ hmem).1, (ha _ hmem).2.trans hp⟩
  have hk : ∀ key ∈ device.keys, ∃ e ∈ cfg, (e.1.addr, e.1.peerId) = key := by
    intro key hke
    unfold keys at hke
    rw [hr, map_map] at hke
    exact mem_map.1 hke
  constructor
  · rfl
  · intro key hke
    obtain ⟨e, he, rfl⟩ := hk key hke
    exact (hd e he).2
  intro key hke
  obtain ⟨e, he, rfl⟩ := hk key hke
  unfold Attended
  rw [hsw]
  exact .inr (.inl (dialRelays_accepted hd he))

end

theorem upkeep_step {keys : List (Multiaddr Peer × Peer)}
    (hk : Upkeep keys device) (inp : Input Peer) : Upkeep keys (device.step inp) := by
  obtain ⟨rfl, hd, ha⟩ := hk
  refine ⟨device.step_keys inp, hd, fun key hke => ?_⟩
  have hr : ∀ state ∈ device.relays, (state.addr, state.peerId) ∈ device.keys := by
    intro state hs
    exact mem_map.2 ⟨state, hs, rfl⟩
  obtain ⟨state, hs, rfl⟩ := mem_map.1 hke
  exact attended_step (fun state hs => hd _ (hr state hs)) inp ⟨state, hs, rfl⟩ (ha _ hke)

/-- Let no first dial be denied, and let every configured address end with its peer id, so that a failed
dial is reported under the relay's peer id. Then in every state of a run each configured relay is
connected, being dialled or waiting for its timer. -/
theorem run_relay_attended {addrs : List (Multiaddr Peer × Bool)}
    (haddrs : ∀ entry ∈ addrs, entry.2 = true ∧ dialPeer entry.1 = RelayState.peerOf entry.1)
    {device : Device Peer} (hstart : start addrs = some device) (inputs : List (Input Peer)) :
    ∀ state ∈ (runTotal tick device inputs).2.relays, Attended (runTotal tick device inputs).2 state.peerId := by
  have hk : Upkeep device.keys (runTotal tick device inputs).2 :=
    runTotal_history (fun _ reached input (hk : Upkeep device.keys reached) => upkeep_step hk input)
      inputs [] (upkeep_start haddrs hstart)
  intro state hs
  apply hk.attended (state.addr, state.peerId)
  rw [← hk.keys_eq]
  exact mem_map.2 ⟨state, hs, rfl⟩

/-- A relay that is reached, lost and dialled again when its timer elapses. -/
theorem run_relay_attended_reconnect : ∃ device : Device Nat, start [([.other "tcp", .p2p 7], true)] = some device ∧
      ∃ inputs : List (Input Nat), inputs.length = 3 ∧
        (runTotal tick device inputs).2.relays.map (fun state => state.peerId) = [7] ∧
        ∀ state ∈ (runTotal tick device inputs).2.relays, Attended (runTotal tick device inputs).2 state.peerId := by
  refine ⟨_, rfl, [.connectionEstablished 7 (some 0) true, .connectionClosed 7, .timerElapsed 0 true], rfl, rfl, ?_⟩
  refine run_relay_attended ?_ (rfl : start [([.other "tcp", .p2p 7], true)] = _) _
  intro _ he
  obtain rfl := mem_singleton.1 he
  exact ⟨rfl, rfl⟩

/-- The first dial of the only relay fails at once: the error is logged, no timer is armed and nothing
happens until another peer connects. A failed dial of a relay whose address goes on after the peer id is
not reported under that peer id and has the same effect. -/
theorem first_dial_abandoned : (∃ device : Device Nat, start [([.other "tcp", .p2p 7], false)] = some device ∧
      ∃ state ∈ device.relays, ¬ Attended device state.peerId) ∧
    ∃ device : Device Nat, start [([.p2p 7, .other "ws"], true)] = some device ∧
      ∃ state ∈ (runTotal tick device [.outgoingConnectionError 0 none]).2.relays,
        ¬ Attended (runTotal tick device [.outgoingConnectionError 0 none]).2 state.peerId := by
  constructor
  all_goals
    refine ⟨_, rfl, _, mem_cons_self, ?_⟩
    rintro (hup | ⟨dial, hd, -⟩ | ⟨state, hs, -, ha⟩)
    · exact absurd hup (by decide)
    · cases hd
    · obtain rfl := mem_singleton.1 hs
      cases ha

end Device
end RustLibp2p.Camera.DeviceLoop
