import RustLibp2p.RelayClientWiring

/-! The external addresses of a relay client. Every address that was confirmed to the swarm and has not expired stands
for a connection on which an open listener has a reservation for it. -/

namespace RustLibp2p.Relay.Client

open OrdMap Transition List Option Client.Action Client.Behaviour TransportToBehaviourMsg

variable {Peer : Type}

def TransportToBehaviourMsg.listener? : TransportToBehaviourMsg Peer → Option ListenerId
  | listenReq listener _ _ => some listener
  | dialReq _ _ _ _ => none

variable [LinearOrder Peer]

def Action.isConfirmed (addr : Multiaddr Peer) : Action Peer → Bool
  | externalAddrConfirmed other => other = addr
  | _ => false

def Action.isExpired (addr : Multiaddr Peer) : Action Peer → Bool
  | externalAddrExpired other => other = addr
  | _ => false

namespace System

def requested (system : System Peer) : List ListenerId := system.behaviour.fromTransport.filterMap listener?

section

variable (system : System Peer) (connection : ConnectionId)

def Direct : Prop :=
  ∃ link, system.links.get? connection = some link ∧ link.endpoint.isRelayed = false

/-- The connection can have a reservation, or will be able to. -/
def Active : Prop :=
  (system.dialing.get? connection).isSome = true ∨ system.Direct connection

end

/-- The notes of the behaviour on listeners and addresses agree with the open listeners. -/
structure Kept (system : System Peer) : Prop where
  requested : ∀ listener ∈ system.requested, listener < system.nextListener
  once : system.requested.Nodup
  mapped : ∀ listener connection, system.behaviour.listenerIdToConnectionId.get? listener = some connection →
    listener < system.nextListener ∧ connection < system.nextConnection ∧ listener ∉ system.requested
  fresh : ∀ connection entry, system.behaviour.reservationAddresses.get? connection = some entry →
    connection < system.nextConnection
  noted : ∀ listener connection, system.behaviour.listenerIdToConnectionId.get? listener = some connection →
    system.Active connection → (system.behaviour.reservationAddresses.get? connection).isSome = true
  shared : ∀ connection addr status, system.behaviour.reservationAddresses.get? connection = some (addr, status) →
    system.Active connection → ∃ listener, system.behaviour.listenerIdToConnectionId.get? listener = some connection
  served : ∀ listener connection addr status,
    system.behaviour.listenerIdToConnectionId.get? listener = some connection →
    system.behaviour.reservationAddresses.get? connection = some (addr, status) → system.Active connection →
      system.listeners.get? listener = some (some (connection, addr))
  confirmed : ∀ connection addr, system.behaviour.reservationAddresses.get? connection = some (addr, .confirmed) →
    system.Direct connection

/-- The behaviour takes the connection for that of the listener. -/
abbrev Maps (system : System Peer) (listener : ListenerId) (connection : ConnectionId) : Prop :=
  system.behaviour.listenerIdToConnectionId.get? listener = some connection

abbrev Notes (system : System Peer) (connection : ConnectionId) (entry : Multiaddr Peer × ReservationStatus) : Prop :=
  system.behaviour.reservationAddresses.get? connection = some entry

variable {system after : System Peer} {connection : ConnectionId} {link changed : Link Peer}

theorem kept_new (localPeerId : Peer) : (new localPeerId).Kept where
  requested := nofun
  once := nodup_nil
  mapped := nofun
  fresh := nofun
  noted := nofun
  shared := nofun
  served := nofun
  confirmed := nofun

theorem direct_setLink (hl : system.links.get? connection = some link) (he : changed.endpoint = link.endpoint)
    (other : ConnectionId) : (system.setLink connection changed).Direct other ↔ system.Direct other := by
  unfold Direct setLink
  rw [get?_insert]
  split_ifs with heq
  · subst heq
    constructor
    · rintro ⟨known, hk, hd⟩
      cases hk
      exact ⟨link, hl, he ▸ hd⟩
    · rintro ⟨known, hk, hd⟩
      cases hl.symm.trans hk
      exact ⟨changed, rfl, he ▸ hd⟩
  · exact Iff.rfl

theorem notify_eq (system : System Peer) (connection : ConnectionId) (cmd : HandlerIn Peer) :
    ∃ links, system.notify connection cmd = { system with links } ∧
      ∀ other, (system.notify connection cmd).Direct other ↔ system.Direct other := by
  have hs : ∃ links, system = { system with links } ∧ ∀ other, system.Direct other ↔ system.Direct other :=
    ⟨system.links, rfl, fun _ => Iff.rfl⟩
  unfold notify
  split
  · exact hs
  · next link hl =>
    split_ifs
    · have he : Link.endpoint { link with toHandler := link.toHandler ++ [cmd] } = link.endpoint := rfl
      exact ⟨_, rfl, direct_setLink hl he⟩
    · exact hs

variable {peer : Peer}

/-! ### The notes of the behaviour -/

/-- Of what is noted some may be forgotten, if what belongs together is forgotten together. -/
theorem Kept.shrunk (hkept : system.Kept)
    (hmap : ∀ listener other, after.Maps listener other → system.Maps listener other)
    (he : ∀ other addr stat, after.Notes other (addr, stat) → ∃ earlier, system.Notes other (addr, earlier))
    (hr : after.requested = system.requested) (hneL : after.nextListener = system.nextListener)
    (hn : system.nextConnection ≤ after.nextConnection)
    (ha : ∀ other, other < system.nextConnection → after.Active other → system.Active other)
    (hno : ∀ listener other, after.Maps listener other →
      after.Active other → (system.behaviour.reservationAddresses.get? other).isSome →
        (after.behaviour.reservationAddresses.get? other).isSome)
    (hs : ∀ listener other e, after.Notes other e →
      after.Active other → system.Maps listener other → ∃ listener, after.Maps listener other)
    (hse : ∀ listener other addr, after.Maps listener other →
      after.Active other → system.listeners.get? listener = some (some (other, addr)) →
        after.listeners.get? listener = some (some (other, addr)))
    (hc : ∀ other addr, after.Notes other (addr, .confirmed) → after.Direct other) : after.Kept where
  requested := by rw [hr, hneL]; exact hkept.requested
  once := by rw [hr]; exact hkept.once
  mapped := fun listener other ho => by
    obtain ⟨hol, hlt, hnot⟩ := hkept.mapped listener other (hmap listener other ho)
    rw [hr, hneL]
    exact ⟨hol, hlt.trans_le hn, hnot⟩
  fresh := fun other e hen => by
    obtain ⟨earlier, hol⟩ := he other e.1 e.2 hen
    exact (hkept.fresh other _ hol).trans_le hn
  noted := fun listener other ho haf => by
    have hol := hmap listener other ho
    have hlt := (hkept.mapped listener other hol).2.1
    exact hno listener other ho haf (hkept.noted listener other hol (ha other hlt haf))
  shared := fun other addr stat hen haf => by
    obtain ⟨earlier, hol⟩ := he other addr stat hen
    have hb := ha other (hkept.fresh other _ hol) haf
    obtain ⟨listener, hl⟩ := hkept.shared other addr earlier hol hb
    exact hs listener other _ hen haf hl
  served := fun listener other addr stat ho hen haf => by
    obtain ⟨earlier, hol⟩ := he other addr stat hen
    have hb := ha other (hkept.fresh other _ hol) haf
    exact hse listener other addr ho haf (hkept.served listener other addr earlier (hmap listener other ho) hol hb)
  confirmed := hc

theorem Kept.frame (hkept : system.Kept) (hd : ∀ connection, system.Direct connection → after.Direct connection)
    (ha : ∀ connection, connection < system.nextConnection → after.Active connection → system.Active connection)
    (hr : after.requested = system.requested := by rfl)
    (hn : system.nextConnection ≤ after.nextConnection := by exact le_rfl)
    (hmap : after.behaviour.listenerIdToConnectionId = system.behaviour.listenerIdToConnectionId := by rfl)
    (he : after.behaviour.reservationAddresses = system.behaviour.reservationAddresses := by rfl)
    (hl : after.listeners = system.listeners := by rfl) (hneL : after.nextListener = system.nextListener := by rfl) :
    after.Kept := by
  refine hkept.shrunk ?_ ?_ hr hneL hn ha ?_ ?_ ?_ ?_
  · simp only [Maps, hmap]
    exact fun _ _ => id
  · simp only [Notes, he]
    exact fun _ _ stat hen => ⟨stat, hen⟩
  · rw [he]
    exact fun _ _ _ _ => id
  · simp only [Maps, hmap]
    exact fun listener _ _ _ _ hli => ⟨listener, hli⟩
  · rw [hl]
    exact fun _ _ _ _ _ => id
  · simp only [Notes, he]
    exact fun other addr hen => hd other (hkept.confirmed other addr hen)

variable {listener : ListenerId} {behaviour : Behaviour Peer} {input : Input Peer} {actions past : List (Action Peer)}
  {addr known : Multiaddr Peer}

theorem Kept.notify (hkept : system.Kept) (connection : ConnectionId) (cmd : HandlerIn Peer) :
    (system.notify connection cmd).Kept := by
  obtain ⟨_, heq, hd⟩ := system.notify_eq connection cmd
  rw [heq] at hd ⊢
  exact hkept.frame (fun other => (hd other).2) fun other _ => Or.imp_right (hd other).1

theorem Kept.dial (hkept : system.Kept) (peer : Peer) (cmd : HandlerIn Peer) : (system.dial peer cmd).Kept := by
  refine hkept.frame (fun _ => id) ?_ rfl (Nat.le_succ _)
  rintro other hlt (hd | hdi)
  · exact .inl ((isSome_get?_insert.1 hd).resolve_left hlt.ne)
  · exact .inr hdi

variable {msgs : List (TransportToBehaviourMsg Peer)}

/-- The request of a listener is noted for a connection that can have a reservation. -/
theorem Kept.takeUp (hkept : system.Kept) (hr : system.requested = listener :: msgs.filterMap listener?)
    (ho : (system.listeners.get? listener).isSome)
    (hf : (system.behaviour.reservationAddresses.get? connection).all (fun e => e = (addr, .pending)))
    (ha : system.Active connection) (hc : connection < system.nextConnection) :
    (system.takeUp msgs listener connection addr).Kept := by
  have hl : listener ∈ system.requested := hr ▸ mem_cons_self
  have hon := hkept.once
  rw [hr, nodup_cons] at hon
  have hsub : ∀ other ∈ msgs.filterMap listener?, other ∈ system.requested :=
    fun other hot => hr ▸ mem_cons_of_mem _ hot
  refine ⟨fun other hot => hkept.requested other (hsub other hot), hon.2, ?_, ?_, ?_, ?_, ?_, ?_⟩
  · refine forall_insert ⟨hkept.requested listener hl, hc, hon.1⟩ fun other tgt hol => ?_
    obtain ⟨hlt, ht, hnot⟩ := hkept.mapped other tgt hol
    exact ⟨hlt, ht, fun hmem => hnot (hsub other hmem)⟩
  · exact forall_insert hc hkept.fresh
  · intro other tgt hot haf
    refine isSome_get?_insert.2 ?_
    rcases get?_insert_iff.1 hot with ⟨-, heq⟩ | ⟨-, hol⟩
    · exact .inl heq
    · exact .inr (hkept.noted other tgt hol haf)
  · intro tgt other stat he haf
    rcases get?_insert_iff.1 he with ⟨rfl, -⟩ | ⟨-, hol⟩
    · exact ⟨listener, get?_insert_iff.2 (.inl ⟨rfl, rfl⟩)⟩
    obtain ⟨known, hk⟩ := hkept.shared tgt other stat hol haf
    refine ⟨known, get?_insert_iff.2 (.inr ⟨?_, hk⟩)⟩
    rintro rfl
    exact (hkept.mapped known tgt hk).2.2 hl
  · intro other tgt known stat hot he haf
    refine (get?_adjust _ _ _ _).trans ?_
    rcases get?_insert_iff.1 hot with ⟨rfl, rfl⟩ | ⟨hne, hol⟩
    · rcases get?_insert_iff.1 he with ⟨-, heq⟩ | ⟨hnot, -⟩
      · cases heq
        obtain ⟨e, he⟩ := isSome_iff_exists.1 ho
        rw [if_pos rfl, he, map_some]
      · exact absurd rfl hnot
    · rw [if_neg hne]
      rcases get?_insert_iff.1 he with ⟨rfl, heq⟩ | ⟨-, he⟩
      · -- another listener of the same connection: its address is the same
        obtain ⟨e, hn⟩ := isSome_iff_exists.1 (hkept.noted other tgt hol haf)
        rw [hn] at hf
        cases heq
        exact hkept.served other tgt _ .pending hol (of_decide_eq_true hf ▸ hn) haf
      · exact hkept.served other tgt known stat hol he haf
  · intro tgt other he
    rcases get?_insert_iff.1 he with ⟨-, heq⟩ | ⟨-, hol⟩
    · cases heq
    · exact hkept.confirmed tgt other hol

theorem Kept.listenOn (hkept : system.Kept) (relay : Peer) (relayAddr : Multiaddr Peer) :
    (system.listenOn relay relayAddr).Kept := by
  have hr : (system.listenOn relay relayAddr).requested = system.requested ++ [system.nextListener] :=
    filterMap_append
  have hn : system.nextListener ∉ system.requested := fun hmem => absurd (hkept.requested _ hmem) (Nat.lt_irrefl _)
  refine { hkept with requested := ?_, once := ?_, mapped := ?_, served := ?_ }
  · intro listener hl
    rw [hr, mem_append, mem_singleton] at hl
    rcases hl with ho | rfl
    · exact (hkept.requested listener ho).trans (Nat.lt_succ_self _)
    · exact Nat.lt_succ_self _
  · rw [hr]
    refine nodup_append.2 ⟨hkept.once, nodup_singleton _, ?_⟩
    rintro listener hl _ hot rfl
    rw [mem_singleton.1 hot] at hl
    exact hn hl
  · intro listener connection hl
    obtain ⟨hlt, hc, hnot⟩ := hkept.mapped listener connection hl
    refine ⟨hlt.trans (Nat.lt_succ_self _), hc, ?_⟩
    rw [hr, mem_append, mem_singleton, not_or]
    exact ⟨hnot, hlt.ne⟩
  · intro listener connection addr stat hl he ha
    have hlt := (hkept.mapped listener connection hl).1
    refine (get?_insert _ _ _ _).trans ?_
    rw [if_neg hlt.ne]
    exact hkept.served listener connection addr stat hl he ha

theorem exists_of_any {listeners : OrdMap ListenerId ConnectionId}
    (ha : (listeners.erase listener).entries.any (fun e => e.2 = connection)) :
    ∃ other, other ≠ listener ∧ listeners.get? other = some connection := by
  obtain ⟨⟨other, _⟩, he, ht⟩ := any_eq_true.1 ha
  cases of_decide_eq_true ht
  exact ⟨other, get?_erase_iff.1 (get?_eq_some_iff.2 he)⟩

section

variable (hkept : system.Kept)
include hkept

theorem Kept.closeListener : Kept { system with
      behaviour := system.behaviour.onListenerClosed listener
      listeners := system.listeners.erase listener } := by
  have hs : ∀ other entry, other ≠ listener → system.listeners.get? other = some entry →
      (system.listeners.erase listener).get? other = some entry :=
    fun other entry hne ho => get?_erase_iff.2 ⟨hne, ho⟩
  rcases system.behaviour.onListenerClosed_cases listener with
    ⟨hn, hsa⟩ | ⟨connection, hc, ⟨hot, hk⟩ | ⟨hl, hd⟩⟩
  · rw [hsa]
    refine hkept.shrunk (fun _ _ => id) (fun _ _ stat he => ⟨stat, he⟩) rfl rfl le_rfl (fun _ _ => id)
      (fun _ _ _ _ => id) ?_ ?_ hkept.confirmed
    · exact fun other _ _ _ _ ho => ⟨other, ho⟩
    intro other tgt addr ho _ he
    refine hs other _ ?_ he
    rintro rfl
    cases hn.symm.trans ho
  · rw [hk]
    refine hkept.shrunk (fun _ _ ho => (get?_erase_iff.1 ho).2)
      (fun _ _ stat he => ⟨stat, he⟩) rfl rfl le_rfl (fun _ _ => id) (fun _ _ _ _ => id) ?_ ?_
      hkept.confirmed
    · intro other tgt _ _ _ ho
      by_cases heq : other = listener
      · subst heq
        cases hc.symm.trans ho
        obtain ⟨left, hne, hle⟩ := exists_of_any hot
        exact ⟨left, get?_erase_iff.2 ⟨hne, hle⟩⟩
      · exact ⟨other, get?_erase_iff.2 ⟨heq, ho⟩⟩
    · exact fun other _ _ ho _ => hs other _ (get?_erase_iff.1 ho).1
  · obtain ⟨_, heq, -⟩ := dropReservation_eq { system.behaviour with
      listenerIdToConnectionId := system.behaviour.listenerIdToConnectionId.erase listener } connection
    rw [hd, heq]
    refine hkept.shrunk (fun _ _ ho => (get?_erase_iff.1 ho).2)
      (fun _ _ stat he => ⟨stat, (get?_erase_iff.1 he).2⟩) rfl rfl le_rfl (fun _ _ => id) ?_ ?_ ?_
      fun other addr he => hkept.confirmed other addr (get?_erase_iff.1 he).2
    · intro other tgt ho _ he
      rw [get?_erase_of_ne]
      · exact he
      -- no other listener stands for the connection
      rintro rfl
      have ha : (system.behaviour.listenerIdToConnectionId.erase listener).entries.any
          (fun entry => entry.2 = tgt) :=
        any_eq_true.2 ⟨_, get?_eq_some_iff.1 ho, decide_eq_true rfl⟩
      rw [hl] at ha
      cases ha
    · intro other tgt entry he _ ho
      refine ⟨other, get?_erase_iff.2 ⟨?_, ho⟩⟩
      rintro rfl
      cases hc.symm.trans ho
      exact (get?_erase_iff.1 he).1 rfl
    · exact fun other _ _ ho _ => hs other _ (get?_erase_iff.1 ho).1

theorem Kept.gone (hmap : ∀ listener other, after.Maps listener other → system.Maps listener other)
    (hm : ∀ listener other, other ≠ connection → system.Maps listener other → after.Maps listener other)
    (he : after.behaviour.reservationAddresses = system.behaviour.reservationAddresses.erase connection ∨
      after.behaviour.reservationAddresses = system.behaviour.reservationAddresses ∧
        ∀ addr, ¬ system.Notes connection (addr, .confirmed))
    (hl : after.listeners = system.listeners.mapValues (released connection))
    (hr : after.requested = system.requested) (hneL : after.nextListener = system.nextListener)
    (hn : after.nextConnection = system.nextConnection)
    (hd : ∀ other, other ≠ connection → system.Direct other → after.Direct other)
    (ha : ∀ other, after.Active other → other ≠ connection ∧ system.Active other) : after.Kept := by
  obtain ⟨hk, hb, hex⟩ : (∀ other, other ≠ connection →
      after.behaviour.reservationAddresses.get? other = system.behaviour.reservationAddresses.get? other) ∧
      (∀ other e, after.Notes other e → system.Notes other e) ∧
      ∀ addr, ¬ after.Notes connection (addr, .confirmed) := by
    rcases he with heq | ⟨heq, hex⟩
    all_goals simp only [Notes, heq]
    · exact ⟨fun _ => get?_erase_of_ne, fun _ _ hen => (get?_erase_iff.1 hen).2,
        fun _ hen => (get?_erase_iff.1 hen).1 rfl⟩
    · exact ⟨fun _ _ => trivial, fun _ _ => id, hex⟩
  refine hkept.shrunk hmap (fun other _ stat ho => ⟨stat, hb other _ ho⟩) hr hneL
    hn.ge (fun other _ h => (ha other h).2) ?_ ?_ ?_ ?_
  · intro listener other _ haf hnot
    rw [hk other (ha other haf).1]
    exact hnot
  · intro listener other _ _ haf hli
    exact ⟨listener, hm listener other (ha other haf).1 hli⟩
  · intro listener other addr _ haf hs
    rw [hl, get?_mapValues, hs, map_some]
    exact congrArg some (if_neg (ha other haf).1)
  intro other addr ho
  refine hd other ?_ (hkept.confirmed other addr (hb other _ ho))
  rintro rfl
  exact hex addr ho

theorem Kept.dialFailed (hw : system.Wired)
    (hd : system.dialing.get? connection = some peer) : Kept { system with
      behaviour := system.behaviour.onDialFailure connection
      dialing := system.dialing.erase connection
      listeners := system.listeners.mapValues (released connection) } := by
  refine hkept.gone (fun _ _ => id) (fun _ _ _ => id) (.inl rfl) rfl rfl rfl rfl (fun _ _ => id) ?_
  rintro other (ho | hdi)
  · change ((system.dialing.erase connection).get? other).isSome at ho
    rw [get?_erase] at ho
    split_ifs at ho with hne
    · cases ho
    · exact ⟨hne, .inl ho⟩
  · refine ⟨?_, .inr hdi⟩
    rintro rfl
    obtain ⟨_, hl, -⟩ := hdi
    cases (hw.dialing other peer hd).2.symm.trans hl

theorem Kept.closed (hw : system.Wired) (hl : system.links.get? connection = some link)
    (hc : system.behaviour.onConnectionClosed link.peer connection link.endpoint = .ok behaviour) :
    Kept { system with
      behaviour
      links := system.links.erase connection
      listeners := system.listeners.mapValues (released connection) } := by
  have hd : ∀ other, other ≠ connection → system.Direct other →
      Direct { system with links := system.links.erase connection } other := by
    rintro other ho ⟨known, hk, hr⟩
    exact ⟨known, get?_erase_iff.2 ⟨ho, hk⟩, hr⟩
  have ha : ∀ other, Active { system with links := system.links.erase connection } other →
      other ≠ connection ∧ system.Active other := by
    rintro other (ho | ⟨known, hk, hr⟩)
    · refine ⟨?_, .inl ho⟩
      rintro rfl
      obtain ⟨peer, hp⟩ := isSome_iff_exists.1 ho
      cases hl.symm.trans (hw.dialing other peer hp).2
    · obtain ⟨hne, hol⟩ := get?_erase_iff.1 hk
      exact ⟨hne, .inr ⟨known, hol, hr⟩⟩
  rcases onConnectionClosed_cases hc with ⟨hr, rfl⟩ | ⟨conns, -, -, rfl⟩
  · refine hkept.gone (fun _ _ => id) (fun _ _ _ => id) (.inr ⟨rfl, ?_⟩) rfl rfl rfl rfl hd ha
    intro addr he
    obtain ⟨known, hk, hd⟩ := hkept.confirmed connection addr he
    cases hl.symm.trans hk
    rw [hr] at hd
    cases hd
  · obtain ⟨_, heq, -⟩ := dropReservation_eq (system.behaviour.forgetConnection link.peer connection conns) connection
    rw [heq]
    refine hkept.gone ?_ ?_ (.inl rfl) rfl rfl rfl rfl hd ha
    · intro listener other ho
      change (system.behaviour.listenerIdToConnectionId.retain _).get? listener = some other at ho
      rw [get?_retain] at ho
      exact (filter_eq_some_iff.1 ho).1
    · intro listener other hne ho
      refine (get?_retain _ _ _).trans ?_
      rw [ho]
      exact if_pos (decide_eq_true hne)

theorem Kept.confirm (he : system.Notes connection (addr, .pending))
    (hc : system.Direct connection) : Kept { system with behaviour := { system.behaviour with
      reservationAddresses := system.behaviour.reservationAddresses.insert connection (addr, .confirmed) } } := by
  refine hkept.shrunk (fun _ _ => id) ?_ rfl rfl le_rfl (fun _ _ => id)
    (fun _ _ _ _ hnot => isSome_get?_insert.2 (.inr hnot)) ?_ (fun _ _ _ _ _ => id) ?_
  · intro other known stat ho
    rcases get?_insert_iff.1 ho with ⟨rfl, heq⟩ | ⟨-, hol⟩
    · cases heq
      exact ⟨.pending, he⟩
    · exact ⟨stat, hol⟩
  · exact fun listener _ _ _ _ hl => ⟨listener, hl⟩
  intro other known ho
  rcases get?_insert_iff.1 ho with ⟨rfl, -⟩ | ⟨-, hol⟩
  · exact hc
  · exact hkept.confirmed other known hol

end

variable {rest : List (HandlerEvent Peer)} {event : HandlerEvent Peer}

theorem direct_of_event (hw : system.Wired)
    (hl : system.links.get? connection = some link) (he : link.toBehaviour = event :: rest) :
    system.Direct connection := by
  refine ⟨link, hl, ?_⟩
  have hh := hw.handler connection link hl
  cases hn : link.handler with
  | none =>
    have hi := (hw.idle connection link hl hn).2
    rw [he] at hi
    cases hi
  | some =>
    rw [hn] at hh
    exact (Bool.not_eq_true' _).mp hh.symm

theorem Kept.deliver (hkept : system.Kept) (hw : system.Wired) (hl : system.links.get? connection = some link)
    (he : link.toBehaviour = event :: rest)
    (hh : system.behaviour.onConnectionHandlerEvent link.peer connection event = .ok behaviour) :
    ({ system with behaviour }.setLink connection { link with toBehaviour := rest }).Kept := by
  have hen : Link.endpoint { link with toBehaviour := rest } = link.endpoint := rfl
  have hd := direct_setLink hl hen
  obtain ⟨_, rfl | ⟨_, het, rfl⟩⟩ := onConnectionHandlerEvent_cases hh
  · exact hkept.frame (fun other => (hd other).2) fun other _ => Or.imp_right (hd other).1
  · have hc := hkept.confirm het (direct_of_event hw hl he)
    exact hc.frame (fun other => (hd other).2) fun other _ => Or.imp_right (hd other).1

theorem orderly_takeUp {relay : Peer} {relayAddr : Multiaddr Peer}
    (ho : system.orderly .pollBehaviour) (ha : system.behaviour.queuedActions = [])
    (hm : system.behaviour.fromTransport = .listenReq listener relay relayAddr :: msgs) :
    (system.listeners.get? listener).isSome ∧
      (system.behaviour.reservationAddresses.get? (system.connectionFor relay)).all
        (fun e => e = (system.behaviour.circuitAddr relay relayAddr, .pending)) ∧
      system.requested = listener :: msgs.filterMap listener? := by
  rw [orderly, takesUp_of_listenReq ha hm, all_some, Bool.and_eq_true] at ho
  refine ⟨ho.1, ho.2, ?_⟩
  rw [requested, hm]
  rfl

theorem Kept.addConnection {ep : ConnectedPoint Peer} {dialing : OrdMap ConnectionId Peer}
    {next : ConnectionId} (hkept : system.Kept) (hf : system.links.get? connection = none)
    (ho : connection < system.nextConnection → system.Active connection)
    (hd : ∀ other, (dialing.get? other).isSome → (system.dialing.get? other).isSome)
    (hg : system.nextConnection ≤ next) :
    Kept { system.addConnection connection peer ep with dialing, nextConnection := next } := by
  have ha := system.addConnection_behaviour connection peer ep
  have hge := system.get?_addConnection connection peer ep
  refine hkept.frame ?_ ?_ (congrArg (fun msgs => msgs.filterMap listener?) (congrArg fromTransport ha)) hg
    ((congrArg listenerIdToConnectionId ha).trans rfl) ((congrArg reservationAddresses ha).trans rfl)
  · rintro other ⟨link, hl, hr⟩
    refine ⟨link, (hge other).trans ((if_neg ?_).trans hl), hr⟩
    rintro rfl
    cases hf.symm.trans hl
  · rintro other hlt (hot | ⟨link, hl, hr⟩)
    · exact .inl (hd other hot)
    have hfo := (hge other).symm.trans hl
    by_cases heq : other = connection
    · subst heq
      exact ho hlt
    · rw [if_neg heq] at hfo
      exact .inr ⟨link, hfo, hr⟩

theorem Kept.step (hkept : system.Kept) (hw : system.Wired) (hr : system.Reports)
    (ho : system.orderly input) (hs : SystemStep system input actions after) : after.Kept := by
  cases hs with
  | same => exact hkept
  | listenOn relay relayAddr => exact hkept.listenOn relay relayAddr
  | dialThrough =>
    exact hkept.frame (fun _ => id) (fun _ _ => id) (filterMap_append.trans (append_nil _))
  | closeListener => exact hkept.closeListener
  | establish =>
    exact hkept.addConnection hw.links_nextConnection (fun hlt => absurd hlt (Nat.lt_irrefl _)) (fun _ => id)
      (Nat.le_succ _)
  | establishDialed address hd =>
    rename_i connection peer
    refine hkept.addConnection (hw.dialing connection peer hd).2 (fun _ => .inl (hd ▸ rfl)) ?_ le_rfl
    intro other hot
    rw [get?_erase] at hot
    split_ifs at hot
    · cases hot
    · exact hot
  | dialFailed hd => exact hkept.dialFailed hw hd
  | link hl hs =>
    have hdi := direct_setLink hl hs.keeps.2.1
    exact hkept.frame (fun other => (hdi other).2) fun other _ => Or.imp_right (hdi other).1
  | closed hl hde hdl hc => exact hkept.closed hw hl hc
  | deliver hl he hh => exact hkept.deliver hw hl he hh
  | act ha =>
    rw [perform_of_report (hr _ (ha ▸ mem_cons_self))]
    exact hkept.frame (fun _ => id) fun _ _ => id
  | reserve ha hm hre =>
    rename_i listener relay relayAddr msgs connection
    obtain ⟨hop, hf, hrq⟩ := orderly_takeUp ho ha hm
    rw [connectionFor, hre, getD_some] at hf
    obtain ⟨link, hl, -, hra⟩ := (hw.direct relay connection).1 (mem_of_relayConnection? hre)
    have ht := hkept.takeUp hrq hop hf (.inr ⟨link, hl, hra⟩) (hw.fresh connection link hl)
    exact ht.notify connection (.reserve listener)
  | reserveLater ha hm hre =>
    rename_i listener relay relayAddr msgs
    obtain ⟨hop, hf, hrq⟩ := orderly_takeUp ho ha hm
    rw [connectionFor, hre, getD_none] at hf
    -- the dial comes first here, so that the request is noted for a connection that is being dialed
    exact (hkept.dial relay (.reserve listener)).takeUp hrq hop hf (.inl (isSome_get?_insert.2 (.inl rfl)))
      (Nat.lt_succ_self _)
  | circuit ha hm =>
    refine Kept.notify ?_ _ _
    exact hkept.frame (fun _ => id) (fun _ _ => id) (by rw [System.requested, System.requested, hm]; rfl)
  | circuitLater ha hm =>
    refine Kept.dial ?_ _ _
    exact hkept.frame (fun _ => id) (fun _ _ => id) (by rw [System.requested, System.requested, hm]; rfl)

/-! ### What the swarm is told -/

def confirmedAt (system : System Peer) (addr : Multiaddr Peer) : Nat :=
  system.behaviour.reservationAddresses.entries.countP fun entry => entry.2 = (addr, .confirmed)

section

variable (past : List (Action Peer)) (system : System Peer)

/-- What the behaviour has told the swarm, and what it will tell it next. -/
def told : List (Action Peer) :=
  past ++ system.behaviour.queuedActions

/-- The confirmed addresses that have not expired are those of the notes. -/
def Counted : Prop :=
  ∀ addr, (told past system).countP (isConfirmed addr) =
    (told past system).countP (isExpired addr) + system.confirmedAt addr

end

section

variable {new : List (Action Peer)}
  (htold : actions ++ after.behaviour.queuedActions = system.behaviour.queuedActions ++ new)
include htold

theorem told_eq : told (past ++ actions) after = told past system ++ new := by
  rw [told, told, append_assoc, htold, append_assoc]

theorem Counted.other (hc : Counted past system)
    (hn : ∀ addr, ∀ act ∈ new, act.isConfirmed addr = false ∧ act.isExpired addr = false)
    (he : ∀ addr, after.confirmedAt addr = system.confirmedAt addr) : Counted (past ++ actions) after := by
  intro addr
  have hno : new.countP (isConfirmed addr) = 0 :=
    countP_eq_zero.2 fun act ha => Bool.eq_false_iff.1 (hn addr act ha).1
  have hno' : new.countP (isExpired addr) = 0 :=
    countP_eq_zero.2 fun act ha => Bool.eq_false_iff.1 (hn addr act ha).2
  rw [told_eq htold, countP_append, countP_append, hno, hno', he, hc addr]
  rfl

theorem Reports.push (hr : system.Reports)
    (hn : ∀ act ∈ new, (∃ event, act = .generateEvent event) ∨ (∃ addr, act = .externalAddrConfirmed addr) ∨
      ∃ addr, act = .externalAddrExpired addr) : after.Reports := by
  intro act ha
  have hmem := mem_append_right actions ha
  rw [htold, mem_append] at hmem
  exact hmem.elim (hr act) (hn act)

structure Tells (past : List (Action Peer)) (system : System Peer) : Prop where
  counted : Counted past system
  reports : system.Reports

theorem Tells.other (ht : Tells past system) (hn : ∀ act ∈ new, ∃ event, act = .generateEvent event)
    (he : ∀ addr, after.confirmedAt addr = system.confirmedAt addr) : Tells (past ++ actions) after := by
  refine ⟨ht.counted.other htold ?_ he, ht.reports.push htold fun act ha => .inl (hn _ ha)⟩
  intro _ act ha
  obtain ⟨_, rfl⟩ := hn act ha
  exact ⟨rfl, rfl⟩

end

theorem Tells.same (ht : Tells past system) (ha : after.behaviour.queuedActions = system.behaviour.queuedActions)
    (he : after.behaviour.reservationAddresses = system.behaviour.reservationAddresses) :
    Tells (past ++ []) after := by
  have htold := ha.trans (append_nil _).symm
  exact ht.other htold nofun fun addr => by rw [confirmedAt, he, confirmedAt]

theorem countP_erase_of_ne (hnot : system.behaviour.reservationAddresses.get? connection ≠ some (addr, .confirmed)) :
    (system.behaviour.reservationAddresses.erase connection).entries.countP
      (fun e => e.2 = (addr, .confirmed)) = system.confirmedAt addr := by
  rw [confirmedAt]
  cases he : system.behaviour.reservationAddresses.get? connection with
  | none => rw [erase_of_get?_none he]
  | some =>
    rw [countP_of_get? he, if_neg]
    · rfl
    · exact fun heq => hnot (he.trans (congrArg some (of_decide_eq_true heq)))

theorem Tells.drop (ht : Tells past system) (ha : after.behaviour = behaviour.dropReservation connection)
    (hac : behaviour.queuedActions = system.behaviour.queuedActions)
    (he : behaviour.reservationAddresses = system.behaviour.reservationAddresses) : Tells (past ++ []) after := by
  obtain ⟨actions, hd, hex⟩ := behaviour.dropReservation_eq connection
  rw [he] at hex
  have htold : [] ++ after.behaviour.queuedActions = system.behaviour.queuedActions ++ actions := by
    rw [ha, hd, hac, nil_append]
  refine ⟨fun addr => ?_, ht.reports.push htold fun act hai => ?_⟩
  rotate_left
  · rcases hex with ⟨addr, -, rfl⟩ | ⟨-, rfl⟩
    · exact .inr (.inr ⟨addr, mem_singleton.1 hai⟩)
    · cases hai
  have hc : after.confirmedAt addr = (system.behaviour.reservationAddresses.erase connection).entries.countP
        (fun e => e.2 = (addr, .confirmed)) := by
    rw [confirmedAt, ha, hd, he]
  have hb := ht.counted addr
  rw [told_eq htold, countP_append, countP_append, hc, hb]
  rcases hex with ⟨known, hk, rfl⟩ | ⟨hnot, rfl⟩
  · rw [confirmedAt, countP_of_get? hk]
    by_cases heq : known = addr
    · subst heq
      simp [isConfirmed, isExpired]
      omega
    · simp [isConfirmed, isExpired, heq]
  · rw [countP_erase_of_ne (hnot addr)]
    rfl

theorem Tells.confirm {report : Event Peer} (ht : Tells past system) (he : system.Notes connection (known, .pending))
    (ha : after.behaviour.queuedActions =
      system.behaviour.queuedActions ++ [.externalAddrConfirmed known] ++ [.generateEvent report])
    (hen : after.behaviour.reservationAddresses =
      system.behaviour.reservationAddresses.insert connection (known, .confirmed)) : Tells (past ++ []) after := by
  have htold : [] ++ after.behaviour.queuedActions =
      system.behaviour.queuedActions ++ [.externalAddrConfirmed known, .generateEvent report] :=
    ha.trans (append_assoc _ _ _)
  refine ⟨fun addr => ?_, ht.reports.push htold fun act hac => ?_⟩
  rotate_left
  · rcases mem_cons.1 hac with hc | hr
    · exact .inr (.inl ⟨known, hc⟩)
    · exact .inl ⟨report, mem_singleton.1 hr⟩
  have hb := ht.counted addr
  rw [told_eq htold, countP_append, countP_append, confirmedAt, hen, countP_insert, hb, confirmedAt, countP_of_get? he]
  by_cases heq : known = addr
  · subst heq
    simp [isConfirmed, isExpired]
    omega
  · simp [isConfirmed, isExpired, heq]

theorem confirmedAt_insert_pending (addr : Multiaddr Peer)
    (hf : (system.behaviour.reservationAddresses.get? connection).all (fun e => e = (known, .pending)) =
    true) :
    (system.behaviour.reservationAddresses.insert connection (known, .pending)).entries.countP
      (fun e => e.2 = (addr, .confirmed)) = system.confirmedAt addr := by
  rw [confirmedAt, countP_insert]
  cases he : system.behaviour.reservationAddresses.get? connection with
  | none =>
    rw [erase_of_get?_none he]
    simp
  | some =>
    rw [he] at hf
    cases of_decide_eq_true hf
    rw [countP_of_get? he]

theorem Tells.ask {act : Action Peer} (ht : Tells past system)
    (hb : system.behaviour.queuedActions = []) (ha : after.behaviour.queuedActions = [])
    (hac : ∀ addr, act.isConfirmed addr = false ∧ act.isExpired addr = false)
    (he : ∀ addr, after.confirmedAt addr = system.confirmedAt addr) : Tells (past ++ [act]) after := by
  have htold : [act] ++ after.behaviour.queuedActions = system.behaviour.queuedActions ++ [act] := by
    rw [hb, ha]
    rfl
  refine ⟨ht.counted.other htold ?_ he, ?_⟩
  · intro addr other ho
    rw [mem_singleton.1 ho]
    exact hac addr
  · intro other ho
    rw [ha] at ho
    cases ho

theorem Tells.notify (ht : Tells past system) (connection : ConnectionId) (cmd : HandlerIn Peer) :
    Tells past (system.notify connection cmd) := by
  obtain ⟨_, heq, -⟩ := system.notify_eq connection cmd
  rw [heq]
  exact { ht with }

theorem Tells.step (ht : Tells past system) (hkept : system.Kept) (hw : system.Wired)
    (ho : system.orderly input) (hs : SystemStep system input actions after) :
    Tells (past ++ actions) after := by
  cases hs with
  | same | listenOn | dialThrough | link => exact ht.same rfl rfl
  | closeListener hop =>
    rename_i listener
    rcases system.behaviour.onListenerClosed_cases listener with
      ⟨-, hsa⟩ | ⟨connection, -, ⟨-, hk⟩ | ⟨-, hd⟩⟩
    · rw [hsa]
      exact ht.same rfl rfl
    · rw [hk]
      exact ht.same rfl rfl
    · exact ht.drop hd rfl rfl
  | establish | establishDialed =>
    exact ht.same ((congrArg queuedActions (system.addConnection_behaviour _ _ _)).trans rfl)
      ((congrArg reservationAddresses (system.addConnection_behaviour _ _ _)).trans rfl)
  | dialFailed hdi =>
    rename_i connection peer
    refine ht.other (append_nil system.behaviour.queuedActions).symm nofun fun addr => ?_
    refine countP_erase_of_ne fun hc => ?_
    obtain ⟨link, hl, -⟩ := hkept.confirmed connection addr hc
    cases (hw.dialing connection peer hdi).2.symm.trans hl
  | closed hl hde hdl hcl =>
    rcases onConnectionClosed_cases hcl with ⟨-, rfl⟩ | ⟨_, -, -, rfl⟩
    · exact ht.same rfl rfl
    · exact ht.drop rfl rfl rfl
  | deliver hl he hh =>
    obtain ⟨report, rfl | ⟨addr, hen, rfl⟩⟩ := onConnectionHandlerEvent_cases hh
    · exact ht.other rfl (fun action ha => ⟨report, mem_singleton.1 ha⟩) fun _ => rfl
    · exact ht.confirm hen rfl rfl
  | act hac =>
    rename_i action rest
    rw [perform_of_report (ht.reports _ (hac ▸ mem_cons_self))]
    have htold : [action] ++ rest = system.behaviour.queuedActions ++ [] := by
      rw [hac, append_nil]
      rfl
    exact ht.other htold nofun fun _ => rfl
  | reserve hac hm hr =>
    obtain ⟨-, hf, -⟩ := orderly_takeUp ho hac hm
    rw [connectionFor, hr, getD_some] at hf
    refine Tells.notify ?_ _ _
    exact ht.ask hac hac (fun _ => ⟨rfl, rfl⟩) fun addr => confirmedAt_insert_pending addr hf
  | reserveLater hac hm hr =>
    obtain ⟨-, hf, -⟩ := orderly_takeUp ho hac hm
    rw [connectionFor, hr, getD_none] at hf
    exact ht.ask hac hac (fun _ => ⟨rfl, rfl⟩) fun addr => confirmedAt_insert_pending addr hf
  | circuit hac =>
    refine Tells.notify ?_ _ _
    exact ht.ask hac hac (fun _ => ⟨rfl, rfl⟩) fun _ => rfl
  | circuitLater hac => exact ht.ask hac hac (fun _ => ⟨rfl, rfl⟩) fun _ => rfl

/-- All that is true of a relay client, with what it has told the swarm. -/
structure Sound (past : List (List (Action Peer))) (system : System Peer) : Prop where
  wired : system.Wired
  reports : system.Reports
  kept : system.Kept
  counted : Counted past.flatten system

theorem sound_new (localPeerId : Peer) : Sound [] (new localPeerId) where
  wired := wired_new localPeerId
  reports := nofun
  kept := kept_new localPeerId
  counted := fun _ => rfl

theorem Sound.exists_step {past : List (List (Action Peer))} (hs : Sound past system) (input : Input Peer)
    (ho : system.orderly input) :
    ∃ actions after, system.step input = .ok (actions, after) ∧ Sound (past ++ [actions]) after := by
  obtain ⟨actions, after, hok⟩ := hs.wired.exists_step input
  have hst := step_cases hok
  have ht := Tells.step { hs with } hs.kept hs.wired ho hst
  refine ⟨actions, after, hok, hs.wired.step hs.reports ho hst, ht.reports, hs.kept.step hs.wired hs.reports ho hst, ?_⟩
  rw [flatten_append, flatten_singleton]
  exact ht.counted

/-- An open listener has asked for a reservation with the address on the connection, and the connection is not gone. -/
def HasReservation (system : System Peer) (connection : ConnectionId) (addr : Multiaddr Peer) : Prop :=
  ∃ listener, system.listeners.get? listener = some (some (connection, addr))

theorem Kept.exists_reservations (hkept : system.Kept) (addr : Multiaddr Peer) :
    ∃ conns : List ConnectionId, conns.Nodup ∧
      (∀ connection ∈ conns, system.HasReservation connection addr) ∧
      conns.length = system.confirmedAt addr := by
  refine ⟨(system.behaviour.reservationAddresses.entries.filter
    (fun e => e.2 = (addr, .confirmed))).map Prod.fst, ?_, ?_, ?_⟩
  · exact system.behaviour.reservationAddresses.nodup_keys.sublist (filter_sublist.map _)
  · intro _ hc
    obtain ⟨⟨known, e⟩, hmem, rfl⟩ := mem_map.1 hc
    obtain ⟨he, hco⟩ := mem_filter.1 hmem
    have hg := get?_eq_some_iff.2 he
    cases of_decide_eq_true hco
    have ha : system.Active known := .inr (hkept.confirmed known addr hg)
    obtain ⟨listener, hl⟩ := hkept.shared known addr .confirmed hg ha
    exact ⟨listener, hkept.served listener known addr .confirmed hl hg ha⟩
  · rw [length_map, ← countP_eq_length_filter, confirmedAt]

/-- In every run of a relay client whose steps are in order, no branch is reached that must not be, and the confirmed
addresses that have not expired stand for connections on which there is still a reservation for the address. -/
theorem run_expires_addresses (localPeerId : Peer) (inputs : List (Input Peer))
    (horderly : Along step (fun system input => system.orderly input) (new localPeerId) inputs) :
    ∃ outputs last, run step (new localPeerId) inputs = .ok (outputs, last) ∧
      ∀ addr, ∃ connections : List ConnectionId, connections.Nodup ∧
        (∀ connection ∈ connections, last.HasReservation connection addr) ∧
        (outputs.flatten ++ last.behaviour.queuedActions).countP (isConfirmed addr) =
          (outputs.flatten ++ last.behaviour.queuedActions).countP (isExpired addr) + connections.length := by
  have hs : ∀ past (system : System Peer) input, Sound past system → system.orderly input →
      ∃ actions after, system.step input = .ok (actions, after) ∧ Sound (past ++ [actions]) after :=
    fun past system input hso hi => hso.exists_step input hi
  obtain ⟨outputs, last, hrun, hso⟩ := run_total_along hs inputs [] (sound_new localPeerId) horderly
  refine ⟨outputs, last, hrun, fun addr => ?_⟩
  obtain ⟨connections, hn, hr, hlen⟩ := hso.kept.exists_reservations addr
  refine ⟨connections, hn, hr, ?_⟩
  rw [hlen]
  exact hso.counted addr

/-- The client is connected to relay 1 and listens through it; the relay grants the reservation. -/
def reservedInputs : List (Input Nat) :=
  [.establish 1 (.listener [] []), .listenOn 1 [.other "a"], .pollBehaviour, .command 0,
    .pollHandler 0 [{ (TurnAnswers.idle : TurnAnswers Nat) with reserve := some (0, .granted [] none) }],
    .deliver 0, .pollBehaviour, .pollBehaviour]

def lostInputs : List (Input Nat) := [.disconnect 0, .closed 0, .pollBehaviour]

theorem run_expires_addresses_lost :
    Along step (fun system input => system.orderly input) (new 0) (reservedInputs ++ lostInputs) ∧
    ∃ outputs last, run step (new 0) (reservedInputs ++ lostInputs) = .ok (outputs, last) ∧
      ∀ addr, ∃ connections : List ConnectionId, connections.Nodup ∧
        (∀ connection ∈ connections, last.HasReservation connection addr) ∧
        (outputs.flatten ++ last.behaviour.queuedActions).countP (isConfirmed addr) =
          (outputs.flatten ++ last.behaviour.queuedActions).countP (isExpired addr) + connections.length :=
  have ho : Along step (fun system input => system.orderly input) (new 0)
      (reservedInputs ++ lostInputs) := by decide +kernel
  ⟨ho, run_expires_addresses 0 _ ho⟩

/-- A listener is closed while its reservation is under way: the behaviour panics when it is granted. And a second
listener on the same connection makes the behaviour forget that the address is confirmed: it does not expire with the
connection. -/
theorem panics_and_keeps_address : run step (new 0)
      [.establish 1 (.listener [] []), .listenOn 1 [.other "a"], .pollBehaviour, .command 0, .closeListener 0,
        .pollHandler 0 [{ (TurnAnswers.idle : TurnAnswers Nat) with reserve := some (0, .granted [] none) }],
        .deliver 0] = .error .noRelayConnection ∧
    ∃ outputs last, run step (new 0)
        (reservedInputs ++ [.listenOn 1 [.other "a"], .pollBehaviour, .closeListener 0] ++ lostInputs ++
          [.closeListener 1]) = .ok (outputs, last) ∧
      last.links.entries = [] ∧ last.listeners.entries = [] ∧
      (outputs.flatten ++ last.behaviour.queuedActions).countP
        (isConfirmed [.other "a", .p2p 1, .p2pCircuit, .p2p 0]) = 1 ∧
      (outputs.flatten ++ last.behaviour.queuedActions).countP
        (isExpired [.other "a", .p2p 1, .p2pCircuit, .p2p 0]) = 0 :=
  ⟨rfl, _, _, rfl, rfl, rfl, by decide +kernel, by decide +kernel⟩

end System
end RustLibp2p.Relay.Client
