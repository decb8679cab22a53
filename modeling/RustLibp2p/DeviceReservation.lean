import RustLibp2p.DeviceRelay

/-! The camera's event loop keeps a circuit reservation on every relay it is connected to. There are two
gaps: a reservation that could not be requested is not asked for later, and a listener that ends without
an error is not noticed. -/

namespace RustLibp2p.Camera.DeviceLoop
open Transition List

variable {Peer : Type}

/-- A circuit listener on the relay exists, so that a reservation on it has been asked for. -/
def Reserved (device : Device Peer) (peer : Peer) : Prop :=
  ∃ state ∈ device.relays, state.peerId = peer ∧
    ∃ listener ∈ device.swarm.listeners, state.reservationId = some listener

/-- A connected relay has its circuit listener, or its timer is armed. -/
def ReservationsUpkept (device : Device Peer) : Prop :=
  ∀ state ∈ device.relays, 0 < device.swarm.established state.peerId →
    Reserved device state.peerId ∨ TimerArmed device.relays state.peerId

/-! ### The reservations of all relays -/

def Device.reservations (device : Device Peer) : List (Peer × Option Nat) :=
  device.relays.map fun state => (state.peerId, state.reservationId)

/-- Every recorded reservation is a listener of its own, and there is one for every connected relay. -/
structure Held (reservations : List (Peer × Option Nat)) (swarm : Swarm Peer) : Prop where
  live : ∀ (index : Nat) peer listener, reservations[index]? = some (peer, some listener) → listener ∈ swarm.listeners
  distinct : ∀ (index index' : Nat) peer peer' listener, reservations[index]? = some (peer, some listener) →
    reservations[index']? = some (peer', some listener) → index = index'
  fresh : ∀ listener ∈ swarm.listeners, listener < swarm.nextListener
  reserved : ∀ entry ∈ reservations, 0 < swarm.established entry.1 → ∃ listener, (entry.1, some listener) ∈ reservations

variable {reservations : List (Peer × Option Nat)}

theorem Held.swarm {swarm next : Swarm Peer} (hh : Held reservations swarm)
    (hl : ∀ (idx : Nat) peer listener, reservations[idx]? = some (peer, some listener) →
      listener ∈ next.listeners)
    (hf : ∀ listener ∈ next.listeners, listener < next.nextListener)
    (hup : ∀ e ∈ reservations, 0 < next.established e.1 → 0 < swarm.established e.1) :
    Held reservations next :=
  ⟨hl, hh.distinct, hf, fun e he hn => hh.reserved e he (hup e he hn)⟩

theorem Held.listeners {swarm next : Swarm Peer} (hh : Held reservations swarm) (hl : next.listeners = swarm.listeners)
    (hn : next.nextListener = swarm.nextListener) :
    (∀ (idx : Nat) peer listener, reservations[idx]? = some (peer, some listener) → listener ∈ next.listeners) ∧
    ∀ listener ∈ next.listeners, listener < next.nextListener := by
  rw [hl, hn]
  exact ⟨hh.live, hh.fresh⟩

variable {swarm : Swarm Peer}

theorem Held.dials (hh : Held reservations swarm) (dials : List (Dial Peer)) : Held reservations { swarm with dials } :=
  { hh with }

variable {slot : Nat} {peer : Peer}

theorem Held.set {swarm next : Swarm Peer} (hh : Held reservations swarm) {held granted : Option Nat}
    (hs : reservations[slot]? = some (peer, held))
    (ho : ∀ (idx : Nat) peer listener, idx ≠ slot → reservations[idx]? = some (peer, some listener) →
      listener ∈ next.listeners ∧ granted ≠ some listener)
    (hf : ∀ listener ∈ next.listeners, listener < next.nextListener)
    (hg : ∀ listener, granted = some listener → listener ∈ next.listeners)
    (hd : granted = none → next.established peer = 0)
    (hup : ∀ other, other ≠ peer → 0 < next.established other → 0 < swarm.established other) :
    Held (reservations.set slot (peer, granted)) next := by
  have hb := (List.getElem?_eq_some_iff.1 hs).1
  have hge : ∀ {idx : Nat} {entry : Peer × Option Nat}, (reservations.set slot (peer, granted))[idx]? = some entry →
      idx = slot ∧ (peer, granted) = entry ∨ idx ≠ slot ∧ reservations[idx]? = some entry := by
    intro idx entry he
    by_cases hi : idx = slot
    · rw [hi, getElem?_set_self hb] at he
      exact .inl ⟨hi, Option.some.inj he⟩
    · rw [getElem?_set_ne (Ne.symm hi)] at he
      exact .inr ⟨hi, he⟩
  constructor
  · intro idx peer' listener he
    rcases hge he with ⟨-, heq⟩ | ⟨hi, hol⟩
    · exact hg listener (Prod.mk.inj heq).2
    · exact (ho idx peer' listener hi hol).1
  · intro idx index' peer₁ peer₂ listener he he'
    rcases hge he with ⟨hi, heq⟩ | ⟨hi, hol⟩ <;> rcases hge he' with ⟨hi', heq'⟩ | ⟨hi', hol'⟩
    · rw [hi, hi']
    · exact absurd (Prod.mk.inj heq).2 (ho index' peer₂ listener hi' hol').2
    · exact absurd (Prod.mk.inj heq').2 (ho idx peer₁ listener hi hol).2
    · exact hh.distinct idx index' peer₁ peer₂ listener hol hol'
  · exact hf
  intro entry he hn
  by_cases hp : entry.1 = peer
  · rw [hp] at hn ⊢
    cases hgr : granted with
    | none =>
      rw [hd hgr] at hn
      exact absurd hn (Nat.lt_irrefl 0)
    | some listener => exact ⟨listener, mem_set hb _⟩
  · have hmem : entry ∈ reservations := by
      rcases mem_or_eq_of_mem_set he with hmem | rfl
      · exact hmem
      · exact absurd rfl hp
    obtain ⟨listener, hl⟩ := hh.reserved entry hmem (hup entry.1 hp hn)
    obtain ⟨idx, hi⟩ := getElem?_of_mem hl
    refine ⟨listener, mem_of_getElem? ((getElem?_set_ne ?_).trans hi)⟩
    rintro rfl
    rw [hs] at hi
    cases hi
    exact hp rfl

theorem Swarm.listenOn_true (swarm : Swarm Peer) : swarm.listenOn true = (some swarm.nextListener, { swarm with
      listeners := swarm.nextListener :: swarm.listeners
      nextListener := swarm.nextListener + 1 }) := rfl

theorem Held.listenOn {swarm next : Swarm Peer} (hh : Held reservations swarm) {held : Option Nat}
    (hs : reservations[slot]? = some (peer, held)) (ho : ∀ (idx : Nat) peer listener, idx ≠ slot →
      reservations[idx]? = some (peer, some listener) → listener ∈ next.listeners)
    (hf : ∀ listener ∈ next.listeners, listener < next.nextListener)
    (hup : ∀ other, other ≠ peer → 0 < next.established other → 0 < swarm.established other) :
    Held (reservations.set slot (peer, some next.nextListener)) (next.listenOn true).2 := by
  rw [Swarm.listenOn_true]
  refine hh.set hs ?_ ?_ ?_ ?_ hup
  · intro idx peer' listener hi he
    have hl := ho idx peer' listener hi he
    refine ⟨mem_cons_of_mem _ hl, fun heq => ?_⟩
    have hlt := hf listener hl
    have heq := Option.some.inj heq
    omega
  · intro listener hli
    show listener < next.nextListener + 1
    rcases mem_cons.1 hli with rfl | hli
    · omega
    · have hlt := hf listener hli
      omega
  · rintro listener heq
    cases heq
    exact mem_cons_self
  · intro heq
    cases heq

variable {α : Type} {fits : α → Bool} {items : List α}

theorem updateFirst_of_find?_eq_some {item : α} (change : α → α) (hf : items.find? fits = some item) :
    ∃ slot : Nat, items[slot]? = some item ∧ updateFirst fits change items = items.set slot (change item) := by
  induction items with
  | nil => cases hf
  | cons first items ih =>
    unfold updateFirst
    by_cases hfi : fits first
    · rw [find?_cons_of_pos hfi] at hf
      cases hf
      exact ⟨0, rfl, if_pos hfi⟩
    rw [find?_cons_of_neg hfi] at hf
    obtain ⟨slot, hs, heq⟩ := ih hf
    refine ⟨slot + 1, hs, ?_⟩
    rw [if_neg hfi, heq]
    rfl

theorem updateFirst_of_find?_eq_none (change : α → α)
    (hf : items.find? fits = none) : updateFirst fits change items = items := by
  induction items with
  | nil => rfl
  | cons first items ih =>
    have hn := find?_eq_none.1 hf
    unfold updateFirst
    rw [if_neg (hn first mem_cons_self), ih]
    exact find?_eq_none.2 fun item hi => hn item (mem_cons_of_mem _ hi)

/-- When a reservation is asked for it can be requested, and the listener of a relay is only closed with an
error. -/
def Input.Served [DecidableEq Peer] (device : Device Peer) : Input Peer → Prop
  | .connectionEstablished peer _ listens =>
    ∀ state, device.relayOf peer = some state → state.reservationId = none → listens = true
  | .listenerClosed listener error listens =>
    ∀ state ∈ device.relays, state.reservationId = some listener →
      error = true ∧ (0 < device.swarm.established state.peerId → listens = true)
  | _ => True

namespace Device

variable [DecidableEq Peer] {device : Device Peer} {state : RelayState Peer}
  {change : RelayState Peer → RelayState Peer}

omit [DecidableEq Peer] in
theorem held_updateFirst {fits : RelayState Peer → Bool} (hf : device.relays.find? fits = some state)
    (hh : ∀ slot : Nat, device.reservations[slot]? = some (state.peerId, state.reservationId) →
      Held (device.reservations.set slot ((change state).peerId, (change state).reservationId)) swarm) :
    Held ((updateFirst fits change device.relays).map fun state => (state.peerId, state.reservationId)) swarm := by
  obtain ⟨slot, hs, heq⟩ := updateFirst_of_find?_eq_some change hf
  rw [heq, map_set]
  refine hh slot ?_
  rw [reservations, getElem?_map, hs]
  rfl

theorem relayOf_peerId (hf : device.relayOf peer = some state) : state.peerId = peer := by
  have hfi := find?_some hf
  exact beq_iff_eq.1 hfi

theorem updateRelay_reservations (peer : Peer)
    (hk : ∀ state, ((change state).peerId, (change state).reservationId) = (state.peerId, state.reservationId)) :
    (device.updateRelay peer change).reservations = device.reservations :=
  map_updateFirst _ _ _ hk device.relays

theorem held_onEstablished {listens : Bool}
    (hh : Held device.reservations device.swarm) (hl : swarm.listeners = device.swarm.listeners)
    (hn : swarm.nextListener = device.swarm.nextListener)
    (hup : ∀ other, other ≠ peer → 0 < swarm.established other → 0 < device.swarm.established other)
    (hli : ∀ state, device.relayOf peer = some state → state.reservationId = none → listens) :
    Held (onEstablished { device with swarm } peer listens).reservations
      (onEstablished { device with swarm } peer listens).swarm := by
  obtain ⟨hlv, hf⟩ := hh.listeners hl hn
  cases hfi : device.relayOf peer with
  | none =>
    have hs : onEstablished { device with swarm } peer listens = { device with swarm } := by
      unfold onEstablished
      rw [show ({ device with swarm } : Device Peer).relayOf peer = none from hfi]
    rw [hs]
    refine hh.swarm hlv hf fun e he => hup e.1 ?_
    obtain ⟨state, hst, rfl⟩ := mem_map.1 he
    intro heq
    exact find?_eq_none.1 hfi state hst (beq_iff_eq.2 heq)
  | some state =>
    have hp : state.peerId = peer := relayOf_peerId hfi
    obtain ⟨granted, hg, heq⟩ : ∃ granted, granted = (if state.reservationId.isNone then
        swarm.listenOn listens else (state.reservationId, swarm)) ∧
        onEstablished { device with swarm } peer listens = { device.updateRelay peer (fun state =>
              { state with
                reconnectAttempt := 0
                dialPending := false
                reconnectTimer := none
                reservationId := granted.1 }) with
            swarm := granted.2 } := by
      refine ⟨_, rfl, ?_⟩
      unfold onEstablished
      rw [show ({ device with swarm } : Device Peer).relayOf peer = some state from hfi]
      rfl
    rw [heq]
    refine held_updateFirst hfi fun slot hsl => ?_
    rw [hp] at hsl ⊢
    cases hr : state.reservationId with
    | none =>
      rw [hr, hli state hfi hr] at hg
      rw [show granted = swarm.listenOn true from hg]
      exact hh.listenOn hsl (fun idx peer listener _ => hlv idx peer listener) hf hup
    | some listener =>
      rw [hr] at hg hsl
      rw [hg]
      refine hh.set hsl ?_ hf ?_ ?_ hup
      · intro idx peer' listener' hi he
        refine ⟨hlv idx peer' listener' he, fun heq => hi ?_⟩
        cases heq
        exact hh.distinct idx slot peer' peer listener he hsl
      · intro listener' heq
        cases heq
        exact hlv slot peer listener hsl
      · intro heq
        cases heq

theorem held_onClosed (hh : Held device.reservations device.swarm) (hl : swarm.listeners = device.swarm.listeners)
    (hn : swarm.nextListener = device.swarm.nextListener)
    (hup : ∀ other, 0 < swarm.established other → 0 < device.swarm.established other) :
    Held (onClosed { device with swarm } peer).reservations (onClosed { device with swarm } peer).swarm := by
  obtain ⟨hli, hf⟩ := hh.listeners hl hn
  have hs : Held device.reservations swarm := hh.swarm hli hf fun e _ => hup e.1
  unfold onClosed
  split
  · rename_i hd
    cases hfi : device.relayOf peer with
    | none =>
      show Held (List.map _ (updateFirst _ _ device.relays)) swarm
      rw [updateFirst_of_find?_eq_none _ hfi]
      exact hs
    | some state =>
      have hp : state.peerId = peer := relayOf_peerId hfi
      rw [← hp] at hd
      refine held_updateFirst hfi fun slot hsl => ?_
      refine hs.set hsl ?_ hf ?_ (fun _ => hd) (fun other _ ho => ho)
      · intro idx peer' listener _ he
        exact ⟨hli idx peer' listener he, nofun⟩
      · intro listener heq
        cases heq
  · exact hs

omit [DecidableEq Peer] in
theorem held_onListenerClosed {listener : Nat} {err listens : Bool} (hh : Held device.reservations device.swarm)
    (hs : ∀ state ∈ device.relays, state.reservationId = some listener →
      err ∧ (0 < device.swarm.established state.peerId → listens)) :
    Held (onListenerClosed { device with swarm := { device.swarm with
        listeners := device.swarm.listeners.erase listener } } listener err listens).reservations
      (onListenerClosed { device with swarm := { device.swarm with
        listeners := device.swarm.listeners.erase listener } } listener err listens).swarm := by
  have hf : ∀ other ∈ device.swarm.listeners.erase listener, other < device.swarm.nextListener :=
    fun other ho => hh.fresh other (mem_of_mem_erase ho)
  have he : ∀ (idx : Nat) peer other, device.reservations[idx]? = some (peer, some other) →
      other ≠ listener → other ∈ device.swarm.listeners.erase listener :=
    fun idx peer other hen hne => (mem_erase_of_ne hne).2 (hh.live idx peer other hen)
  rcases onListenerClosed_cases { device with swarm := { device.swarm with
    listeners := device.swarm.listeners.erase listener } } listener err listens with
    ⟨heq, hn⟩ | ⟨state, hfi, granted, hg, heq⟩
  · rw [heq]
    refine hh.swarm (fun idx peer other hen => he idx peer other hen ?_) hf fun e _ hup => hup
    rintro rfl
    obtain ⟨state, hst, hk⟩ := mem_map.1 (mem_of_getElem? hen)
    have hheB : state.reservationId = some other := (Prod.mk.inj hk).2
    exact hn (hs state hst hheB).1 state hst hheB
  · have hheB : state.reservationId = some listener := by
      have hft := find?_some hfi
      exact beq_iff_eq.1 hft
    have hl := (hs state (mem_of_find?_eq_some hfi) hheB).2
    rw [heq]
    refine held_updateFirst hfi fun slot hsl => ?_
    rw [hheB] at hsl
    -- No other relay has the closed listener.
    have hot : ∀ (idx : Nat) peer other, idx ≠ slot → device.reservations[idx]? = some (peer, some other) →
        other ∈ device.swarm.listeners.erase listener := by
      intro idx peer other hi hen
      refine he idx peer other hen ?_
      rintro rfl
      exact hi (hh.distinct idx slot peer state.peerId other hen hsl)
    by_cases hd : device.swarm.established state.peerId = 0
    · rw [if_pos hd] at hg
      rw [hg]
      refine hh.set hsl ?_ hf ?_ (fun _ => hd) (fun other _ ho => ho)
      · intro idx peer other hi hen
        exact ⟨hot idx peer other hi hen, nofun⟩
      · intro other heq
        cases heq
    · rw [if_neg hd, hl (Nat.pos_of_ne_zero hd)] at hg
      rw [hg]
      exact hh.listenOn hsl hot hf fun other _ ho => ho

section

variable (device : Device Peer) (idx : Nat) (accepts : Bool)

omit [DecidableEq Peer]

theorem onTimer_reservations :
    (device.onTimer idx accepts).reservations = device.reservations := by
  unfold onTimer
  cases hs : device.relays[idx]? with
  | none => rfl
  | some =>
    dsimp only
    split
    · rfl
    split
    all_goals exact map_set_of_eq _ hs rfl

theorem onTimer_swarm :
    ∃ dials, (device.onTimer idx accepts).swarm = { device.swarm with dials } := by
  unfold onTimer
  split
  · exact ⟨_, rfl⟩
  dsimp only
  split
  · exact ⟨_, rfl⟩
  split
  · rename_i hd
    exact ⟨_, Swarm.dial_eq_some hd⟩
  · exact ⟨_, rfl⟩

end

theorem held_step (hh : Held device.reservations device.swarm) {inp : Input Peer}
    (hs : inp.Served device) : Held (device.step inp).reservations (device.step inp).swarm := by
  have hu : ∀ {peer other : Peer} {count : Nat}, other ≠ peer →
      0 < Function.update device.swarm.established peer count other →
      0 < device.swarm.established other := by
    intro peer other count hne hup
    rwa [Function.update_of_ne hne] at hup
  cases inp with
  | connectionEstablished peer dial =>
    cases dial with
    | none => exact held_onEstablished hh rfl rfl (fun other hne => hu hne) hs
    | some =>
      simp [step]
      split
      · exact hh
      split
      · exact held_onEstablished hh rfl rfl (fun other hne => hu hne) hs
      · exact hh
  | connectionClosed peer =>
    simp [step]
    split
    · exact hh
    rename_i hup
    refine held_onClosed hh rfl rfl fun other ho => ?_
    by_cases hp : other = peer
    · subst hp
      exact Nat.pos_of_ne_zero hup
    · exact hu hp ho
  | outgoingConnectionError idx reported =>
    simp [step]
    split
    · exact hh
    rename_i dial _
    cases dial.peer.or reported with
    | none => exact hh.dials _
    | some peer =>
      show Held (Device.reservations (updateRelay _ peer _)) _
      rw [updateRelay_reservations peer (by intro state; rfl)]
      exact hh.dials _
  | behaviourDials => exact hh.dials _
  | timerElapsed idx accepts =>
    obtain ⟨dials, hsw⟩ := device.onTimer_swarm idx accepts
    show Held (device.onTimer idx accepts).reservations (device.onTimer idx accepts).swarm
    rw [onTimer_reservations, hsw]
    exact hh.dials dials
  | reservationReqAccepted peer =>
    simp [step]
    split
    · exact hh
    show Held (device.updateRelay peer _).reservations device.swarm
    rw [updateRelay_reservations peer]
    · exact hh
    · intro state
      split <;> rfl
  | listenerClosed =>
    simp [step]
    split
    · exact held_onListenerClosed hh hs
    · exact hh

omit [DecidableEq Peer] in
theorem dialRelays_swarm (cfg : List (RelayState Peer × Bool)) (swarm : Swarm Peer) :
    ∃ dials, dialRelays swarm cfg = { swarm with dials } := by
  induction cfg generalizing swarm with
  | nil => exact ⟨swarm.dials, rfl⟩
  | cons first cfg ih =>
    obtain ⟨dials, hd⟩ := ih ((swarm.dial first.1.addr first.2).getD swarm)
    refine ⟨dials, hd.trans ?_⟩
    cases hn : swarm.dial first.1.addr first.2 with
    | none => rfl
    | some => rw [Option.getD_some, Swarm.dial_eq_some hn]

variable {addrs : List (Multiaddr Peer × Bool)}

omit [DecidableEq Peer] in
theorem held_start
    (hs : start addrs = some device) : Held device.reservations device.swarm := by
  obtain ⟨cfg, hr, hsw, hg⟩ := start_eq_some hs
  obtain ⟨_, hd⟩ := dialRelays_swarm cfg (.init : Swarm Peer)
  have hn : ∀ e ∈ device.reservations, e.2 = none := by
    intro e he
    obtain ⟨_, hst, rfl⟩ := mem_map.1 he
    rw [hr] at hst
    obtain ⟨given, hmem, rfl⟩ := mem_map.1 hst
    exact (hg given hmem).2.2
  have hem : ∀ (idx : Nat) peer listener, device.reservations[idx]? ≠ some (peer, some listener) := by
    intro idx peer listener he
    cases hn _ (mem_of_getElem? he)
  rw [hsw, hd]
  constructor
  · exact fun idx peer listener he => absurd he (hem idx peer listener)
  · exact fun idx _ peer _ listener he => absurd he (hem idx peer listener)
  · exact nofun
  · exact fun e _ hup => absurd hup (Nat.lt_irrefl 0)

/-- Let every reservation that the loop asks for be requested, and let the listener of a relay only ever be
closed with an error. Then in every state of a run each connected relay has its circuit listener, or its
timer is armed. -/
theorem run_reservations_upkept {addrs : List (Multiaddr Peer × Bool)} {device : Device Peer}
    (hstart : start addrs = some device) {inputs : List (Input Peer)}
    (hserved : AlongTotal tick (fun device input => input.Served device) device inputs) :
    ReservationsUpkept (runTotal tick device inputs).2 := by
  have hh := runTotal_along
    (fun _ reached input (hh : Held reached.reservations reached.swarm) hserved => held_step hh hserved)
    inputs [] (held_start hstart) hserved
  intro state hs hup
  obtain ⟨listener, hl⟩ := hh.reserved _ (mem_map.2 ⟨state, hs, rfl⟩) hup
  obtain ⟨_, hi⟩ := getElem?_of_mem hl
  obtain ⟨found, hf, hk⟩ := mem_map.1 hl
  exact .inl ⟨found, hf, (Prod.mk.inj hk).1, listener, hh.live _ _ _ hi, (Prod.mk.inj hk).2⟩

/-- The circuit listener fails on a connected relay and is replaced. -/
theorem run_reservations_upkept_replaced : ∃ device : Device Nat, start [([.other "tcp", .p2p 7], true)] = some device ∧
      ∃ inputs : List (Input Nat), inputs.length = 3 ∧ (runTotal tick device inputs).2.swarm.established 7 = 1 ∧
        ReservationsUpkept (runTotal tick device inputs).2 := by
  refine ⟨_, rfl, [.connectionEstablished 7 (some 0) true, .reservationReqAccepted 7,
    .listenerClosed 0 true true], rfl, rfl, ?_⟩
  refine run_reservations_upkept (rfl : start [([.other "tcp", .p2p 7], true)] = _) ?_
  exact ⟨fun _ _ _ => rfl, trivial, fun _ _ _ => ⟨rfl, fun _ => rfl⟩, trivial⟩

/-- The relay is connected and has no circuit listener, nor is its timer armed, when the listener could not
be created on connecting, and when it ends without an error. -/
theorem reservation_dropped : ∃ device : Device Nat, start [([.other "tcp", .p2p 7], true)] = some device ∧
      ¬ ReservationsUpkept (runTotal tick device [.connectionEstablished 7 (some 0) false]).2 ∧
      ¬ ReservationsUpkept (runTotal tick device [.connectionEstablished 7 (some 0) true,
        .reservationReqAccepted 7, .listenerClosed 0 false true]).2 := by
  refine ⟨_, rfl, fun hu => ?_, fun hu => ?_⟩
  all_goals
    rcases hu _ mem_cons_self (by decide) with ⟨_, _, _, _, hl, _⟩ | ⟨_, hs, _, ha⟩
    · cases hl
    · obtain rfl := mem_singleton.1 hs
      cases ha

end Device
end RustLibp2p.Camera.DeviceLoop
