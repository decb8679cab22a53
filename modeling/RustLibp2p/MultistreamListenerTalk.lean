import RustLibp2p.MultistreamTalk

/-! A poll of the listener keeps the account of what was said. -/

namespace RustLibp2p.Multistream
open PollIo LengthDelimited List Listener Message

theorem find_supported (names : List String) (io : LengthDelimited) (phase : ListenerPhase) (lastSentNa : Bool)
    (p : Protocol) : find ⟨supportedProtocols names, io, phase, lastSentNa⟩ p =
      if p.name ∈ names then some p.name else none := by
  unfold find supportedProtocols
  induction names with
  | nil => rfl
  | cons name names ih =>
    by_cases hs : (Bytes.utf8Bytes name).head? = some slash
    · have hn : Protocol.tryFromStr name = .ok ⟨name, hs⟩ := dif_pos hs
      rw [filterMap_cons_some (by rw [hn]; rfl), findSome?_cons]
      by_cases heq : p = ⟨name, hs⟩
      · subst heq
        rw [if_pos rfl, if_pos mem_cons_self]
      have hne : p.name ≠ name := by
        intro hne
        apply heq
        cases p
        cases hne
        rfl
      rw [if_neg heq]
      refine ih.trans ?_
      simp [hne]
    · have hn : Protocol.tryFromStr name = .error .invalidProtocol := dif_neg hs
      have hne : p.name ≠ name := by
        rintro rfl
        exact hs p.startsWithSlash
      rw [filterMap_cons_none (by rw [hn]; rfl)]
      refine ih.trans ?_
      simp [hne]

variable [UnsignedVarint]

/-- What a dialer proposes: only the last proposal can be one that is supported. -/
structure Proposed (names : List String) (heard : List Message) : Prop where
  sendable : ∀ message ∈ heard, message.Sendable
  shape : ∃ protocols, heard <+: proposals protocols ∧ Unsupported names protocols.dropLast

section ListenerHolds

variable (names : List String) (heard sent : List Message) (before future extra : List UInt8)

/-- The account of a listener, as that of a dialer. -/
def ListenerHolds (party : Party Listener) (port : Port) : Prop :=
  ∃ recv queue new, ListenerTalk names port.held party recv (sent ++ new) ∧ recv ++ queue = heard ∧
    party.Link io (port.incoming ++ future) extra queue ∧
    port.passed ++ port.held ++ party.buffer io = before ++ wire (new.map encode) ∧
    port.remoteDropped = false

/-- The account is kept by one turn of the loop. -/
def ListenerTurnHolds (listener : Listener) (port : Port) : Prop :=
  (∃ listener' port', turn (listener, port) = .next (listener', port') ∧
    ListenerHolds names heard sent before future extra (.selecting listener') port') ∨
  ∃ party port', turn (listener, port) = .stop (party, port') ∧
    ListenerHolds names heard sent before future extra party port'

variable {names heard sent before future extra} {io : LengthDelimited} {port : Port} {recv queue new : List Message}
  {rejected : List Protocol} {p : Protocol} {lastSentNa : Bool}

theorem OnWire.listenerHolds {listener : Listener}
    (hw : OnWire heard before future extra recv queue new listener.io port)
    (ht : ListenerTalk names port.held (.selecting listener) recv (sent ++ new)) :
    ListenerHolds names heard sent before future extra (.selecting listener) port :=
  ⟨recv, queue, new, ht, hw.heard_eq, hw.frame, hw.bytes, hw.opened⟩

theorem listener_recvHeader_holds (hpro : Proposed names heard) (hq : queue = [] → extra = [])
    (hs : sent ++ new = []) (hw : OnWire heard before future extra [] queue new io port)
    (hb : io.writeBuffer = []) (hh : port.held = []) :
    ListenerTurnHolds names heard sent before future extra
      ⟨supportedProtocols names, io, .recvHeader, lastSentNa⟩ port := by
  unfold ListenerTurnHolds turn
  dsimp only
  rcases hw.hears hpro.sendable hq hb hh with
    ⟨io', port', heq, hw', hb', hh'⟩ | ⟨message, queue', io', port', rfl, heq, hw', hb', -⟩
  · rw [heq]
    refine .inr ⟨_, _, rfl, hw'.listenerHolds ?_⟩
    rw [hs]
    exact .recvHeader hb' hh'
  · rw [heq]
    obtain ⟨_, hbe, -⟩ := hpro.shape
    rw [← hw.heard_eq] at hbe
    obtain rfl : message = .header .v1 := (cons_prefix_cons.1 hbe).1
    dsimp only
    rw [if_pos rfl]
    refine .inl ⟨_, _, rfl, OnWire.listenerHolds hw' ?_⟩
    rw [hs]
    exact .sendHeader hb'

variable {listener : Listener} {message : Message} {protocols : List (String × Protocol)} {protocol : Option String}

theorem listener_send_holds {listener' : Listener}
    (hw : OnWire heard before future extra recv queue new listener.io port)
    (hio : listener'.io = { listener.io with writeBuffer := listener.io.writeBuffer ++ wire [message.encode] })
    (ht : turn (listener, port) = .next (listener', port))
    (hta : ListenerTalk names port.held (.selecting listener') recv (sent ++ (new ++ [message]))) :
    ListenerTurnHolds names heard sent before future extra listener port := by
  have hw' := hw.send message
  rw [← hio] at hw'
  exact .inl ⟨listener', port, ht, hw'.listenerHolds hta⟩

theorem turn_sendHeader (port : Port) (hb : io.writeBuffer = []) :
    turn (⟨protocols, io, .sendHeader, lastSentNa⟩, port) =
      .next (⟨protocols, { io with writeBuffer := io.writeBuffer ++ wire [encode (.header .v1)] },
        .flush none, lastSentNa⟩, port) := by
  unfold turn
  dsimp only
  rw [pollReady_of_lt port (by rw [hb]; decide)]
  dsimp only
  rw [startSend_of_sendable io sendable_header]

theorem turn_sendMessage (port : Port) (hb : io.writeBuffer = []) (hs : message.Sendable) :
    turn (⟨protocols, io, .sendMessage message protocol, lastSentNa⟩, port) =
      .next (⟨protocols, { io with writeBuffer := io.writeBuffer ++ wire [message.encode] },
        .flush protocol, message = .notAvailable⟩, port) := by
  unfold turn
  dsimp only
  rw [pollReady_of_lt port (by rw [hb]; decide)]
  dsimp only
  rw [startSend_of_sendable io hs]

theorem listener_flush_holds (hw : OnWire heard before future extra recv queue new io port)
    (ht : ∀ (io' : LengthDelimited) held,
      ListenerTalk names held (.selecting ⟨supportedProtocols names, io', .flush protocol, lastSentNa⟩) recv
        (sent ++ new))
    (hd : ∀ (io' : LengthDelimited) (port' : Port),
      io.pollFlush port = (.ready (.ok ()), io', port') → io'.writeBuffer = [] → port'.held = [] →
      OnWire heard before future extra recv queue new io' port' →
      ListenerTurnHolds names heard sent before future extra
        ⟨supportedProtocols names, io, .flush protocol, lastSentNa⟩ port) :
    ListenerTurnHolds names heard sent before future extra
      ⟨supportedProtocols names, io, .flush protocol, lastSentNa⟩ port := by
  obtain ⟨res, io', port', heq, hwr, hf⟩ := io.pollFlush_writes port
  have hw' := hw.sends hwr.sends
  match res with
  | .pending =>
    refine .inr ⟨_, port', ?_, OnWire.listenerHolds hw' (ht io' port'.held)⟩
    unfold turn
    dsimp only
    rw [heq]
  | .ready (.error error) => rcases hwr.notFailed hw.opened with h | h <;> cases h
  | .ready (.ok ()) =>
    obtain ⟨hb, hh, -⟩ := hf rfl
    exact hd io' port' heq hb hh hw'

theorem listener_flushed_holds (hu : Unsupported names rejected) (hs : sent ++ new = rejections rejected)
    (hr : recv = proposals rejected) (hw : OnWire heard before future extra recv queue new io port) :
    ListenerTurnHolds names heard sent before future extra
      ⟨supportedProtocols names, io, .flush none, lastSentNa⟩ port := by
  refine listener_flush_holds hw (fun io' held => ?_) ?_
  · rw [hs, hr]
    exact .flush hu
  intro io' port' heq hb hh hw'
  refine .inl ⟨⟨supportedProtocols names, io', .recvMessage, lastSentNa⟩, port', ?_, hw'.listenerHolds ?_⟩
  · unfold turn
    dsimp only
    rw [heq]
  · rw [hs, hr]
    exact .recvMessage hu hb hh

section

variable (hpro : Proposed names heard)
include hpro

theorem Proposed.queue_nil (hn : p.name ∈ names) (hh : proposals (rejected ++ [p]) ++ queue = heard) : queue = [] := by
  obtain ⟨_, ⟨_, hb⟩, hu⟩ := hpro.shape
  rw [← hh, append_assoc] at hb
  obtain ⟨others, rfl, ho⟩ := proposals_append_eq hb
  cases others with
  | nil => exact (append_eq_nil_iff.1 ho).1
  | cons =>
    refine absurd hn (hu p ?_)
    rw [dropLast_append_of_ne_nil (cons_ne_nil _ _)]
    exact mem_append_left _ (mem_append_right _ mem_cons_self)

theorem listener_confirmed_holds (hu : Unsupported names rejected)
    (hn : p.name ∈ names) (hs : sent ++ new = rejections rejected ++ [.protocol p])
    (hr : recv = proposals (rejected ++ [p])) (hw : OnWire heard before future extra recv queue new io port) :
    ListenerTurnHolds names heard sent before future extra
      ⟨supportedProtocols names, io, .flush (some p.name), lastSentNa⟩ port := by
  refine listener_flush_holds hw (fun io' held => ?_) ?_
  · rw [hs, hr]
    exact .confirm hu hn
  intro io' port' heq hb _ hw'
  obtain rfl := hpro.queue_nil hn (hr ▸ hw.heard_eq)
  cases hw'.frame with
  | done hst hre hrs =>
    refine .inr ⟨.settled p.name .completed, port', ?_, recv, [], new, ?_, hw.heard_eq, ⟨rfl, hrs⟩,
      hw'.bytes_of_empty hb, hw'.opened⟩
    · unfold turn Party.completed LengthDelimited.intoInner
      dsimp only
      rw [heq]
      dsimp only
      rw [if_pos ⟨hre, hb⟩]
    · rw [hs, hr]
      exact .settled hu hn

theorem listener_recvMessage_holds (hq : queue = [] → extra = [])
    (hu : Unsupported names rejected) (hs : sent ++ new = rejections rejected)
    (hr : recv = proposals rejected) (hw : OnWire heard before future extra recv queue new io port)
    (hb : io.writeBuffer = []) (hh : port.held = []) :
    ListenerTurnHolds names heard sent before future extra
      ⟨supportedProtocols names, io, .recvMessage, lastSentNa⟩ port := by
  unfold ListenerTurnHolds turn
  dsimp only
  rcases hw.hears hpro.sendable hq hb hh with
    ⟨io', port', heq, hw', hb', hh'⟩ | ⟨message, queue', io', port', rfl, heq, hw', hb', -⟩
  · rw [heq]
    refine .inr ⟨_, _, rfl, hw'.listenerHolds ?_⟩
    rw [hs, hr]
    exact .recvMessage hu hb' hh'
  · rw [heq]
    obtain ⟨p, rfl⟩ : ∃ p, message = .protocol p := by
      obtain ⟨_, ⟨_, hbe⟩, -⟩ := hpro.shape
      rw [← hw.heard_eq, hr, append_assoc] at hbe
      obtain ⟨_, -, ho⟩ := proposals_append_eq hbe
      obtain ⟨p, -, -, hp, -⟩ := map_eq_cons_iff.1 ho.symm
      exact ⟨p, hp.symm⟩
    rw [hr, ← proposals_append] at hw'
    unfold reply
    dsimp only
    rw [find_supported]
    by_cases hn : p.name ∈ names
    · rw [if_pos hn]
      refine .inl ⟨_, _, rfl, hw'.listenerHolds ?_⟩
      rw [hs]
      exact .accept hu hn hb'
    · rw [if_neg hn]
      refine .inl ⟨_, _, rfl, hw'.listenerHolds ?_⟩
      rw [hs]
      exact .reject (hu.append hn) hb'

/-- One turn of a listener to which bytes of the application come only behind the messages, while it reads. -/
theorem listener_turn_of_talk (ht : ListenerTalk names port.held (.selecting listener) recv (sent ++ new))
    (hw : OnWire heard before future extra recv queue new listener.io port)
    (hq : listener.phase = .recvHeader ∨ listener.phase = .recvMessage → queue = [] → extra = []) :
    ListenerTurnHolds names heard sent before future extra listener port := by
  generalize hs : sent ++ new = said at ht
  generalize hp : Party.selecting listener = party at ht
  cases ht with
  | recvHeader hb hh =>
    cases hp
    exact listener_recvHeader_holds hpro (hq (.inl rfl)) hs hw hb hh
  | sendHeader hb =>
    cases hp
    refine listener_send_holds hw rfl (turn_sendHeader port hb) ?_
    rw [← append_assoc, hs]
    exact .flush fun _ h => absurd h not_mem_nil
  | flush hu =>
    cases hp
    exact listener_flushed_holds hu hs rfl hw
  | recvMessage hu hb hh =>
    cases hp
    exact listener_recvMessage_holds hpro (hq (.inr rfl)) hu hs rfl hw hb hh
  | reject hu hb =>
    cases hp
    refine listener_send_holds hw rfl (turn_sendMessage port hb sendable_notAvailable) ?_
    rw [← append_assoc, hs, ← rejections_append]
    exact .flush hu
  | accept hu hn hb =>
    cases hp
    refine listener_send_holds hw rfl (turn_sendMessage port hb (hpro.sendable _ ?_)) ?_
    · rw [← hw.heard_eq, proposals_append]
      exact mem_append_left _ (mem_append_right _ mem_cons_self)
    · rw [← append_assoc, hs]
      exact .confirm hu hn
  | confirm hu hn =>
    cases hp
    exact listener_confirmed_holds hpro hu hn hs rfl hw
  | settled => cases hp

end

omit [UnsignedVarint] in
theorem ListenerTalk.unsupported {held : List UInt8} (ht : ListenerTalk names held (.selecting listener) recv sent)
    (hph : listener.phase = .recvHeader ∨ listener.phase = .recvMessage) {p : Protocol} (hp : .protocol p ∈ recv) :
    p.name ∉ names := by
  cases ht with
  | recvHeader => exact absurd hp not_mem_nil
  | recvMessage hu => exact hu p (mem_proposals hp)
  | _ => rcases hph with h | h <;> cases h

section

variable (hpro : Proposed names heard) (hext : extra ≠ [] → ∃ p, .protocol p ∈ heard ∧ p.name ∈ names)
  (hhol : ListenerHolds names heard sent before future extra (.selecting listener) port)
include hpro hext hhol

theorem listener_turn_holds : ListenerTurnHolds names heard sent before future extra listener port := by
  obtain ⟨_, _, _, ht, hh, hl, hb, ho⟩ := hhol
  refine listener_turn_of_talk hpro ht ⟨hh, hl, hb, ho⟩ fun hph hq => ?_
  by_contra hb
  obtain ⟨_, hp, hn⟩ := hext hb
  rw [← hh, hq, append_nil] at hp
  exact ht.unsupported hph hp hn

theorem listener_poll_holds :
    ListenerHolds names heard sent before future extra (listener.poll port).1 (listener.poll port).2 :=
  poll_keeps (fun _ _ => listener_turn_holds hpro hext) hhol

end
end ListenerHolds

/-! ### What is passed on stays passed on -/

def turnPort : Turn (Listener × Port) (Party Listener × Port) → Port
  | .next (_, port) => port
  | .stop (_, port) => port

theorem turn_passed (listener : Listener) (port : Port) :
    port.passed <+: (turnPort (turn (listener, port))).passed := by
  obtain ⟨_, io, phase, _⟩ := listener
  have hs : port.passed <+: (pollStream io port).2.2.passed := pollStream_passed io port ▸ prefix_rfl
  have hr : port.passed <+: (io.pollReady port).2.2.passed := by
    obtain ⟨res, io', port', heq, hw⟩ := io.pollReady_writes port
    rw [heq]
    exact hw.sends.passed
  have hf : port.passed <+: (io.pollFlush port).2.2.passed := by
    obtain ⟨res, io', port', heq, hw, -⟩ := io.pollFlush_writes port
    rw [heq]
    exact hw.sends.passed
  -- the port after a turn is that of the one call it makes
  unfold turn
  cases phase with
  | recvHeader =>
    dsimp only
    generalize pollStream io port = output at hs ⊢
    repeat' split
    all_goals
      subst_vars
      exact hs
  | recvMessage =>
    dsimp only
    generalize pollStream io port = output at hs ⊢
    repeat' split
    all_goals exact hs
  | sendHeader | sendMessage message protocol =>
    dsimp only
    generalize io.pollReady port = output at hr ⊢
    repeat' split
    all_goals exact hr
  | flush =>
    dsimp only
    generalize io.pollFlush port = output at hf ⊢
    repeat' split
    all_goals exact hf

/-! ### After the dialer has dropped the stream -/

section ListenerAlone

variable (names : List String) (recv sent : List Message) (before : List UInt8)

/-- The listener has answered everything and rejected all proposals, and no byte is on its way. -/
structure ListenerAlone (party : Party Listener) (port : Port) : Prop where
  talk : ListenerTalk names port.held party recv sent ∨ party = .failed .failed
  answered : recv.length = sent.length
  unsupported : ∀ p, .protocol p ∈ recv → p.name ∉ names
  buffer : party.buffer io = []
  link : party.Link io port.incoming [] []
  bytes : port.passed ++ port.held = before
  dropped : port.remoteDropped = true

variable {names recv sent before}

theorem listener_alone_reads {io : LengthDelimited} {port : Port} {phase : ListenerPhase} {lastSentNa : Bool}
    (halo : ListenerAlone names recv sent before (.selecting ⟨supportedProtocols names, io, phase, lastSentNa⟩) port)
    (hp : phase = .recvHeader ∨ phase = .recvMessage)
    (hpe : ∀ {io' : LengthDelimited} {held : List UInt8}, io'.writeBuffer = [] → held = port.held →
      ListenerTalk names held (.selecting ⟨supportedProtocols names, io', phase, lastSentNa⟩) recv sent) :
    ∃ party port', turn (⟨supportedProtocols names, io, phase, lastSentNa⟩, port) = .stop (party, port') ∧
      ListenerAlone names recv sent before party port' := by
  have hl : InFrame io (port.incoming ++ []) [] ([].map encode) := by
    rw [append_nil]
    exact halo.link
  have hr := pollStream_receives hl (fun _ h => absurd h not_mem_nil) (fun _ => rfl) fun _ => rfl
  generalize hpo : pollStream io port = output at hr
  cases hr with
  | pending hpr hw hf =>
    rename_i io' port'
    refine ⟨.selecting ⟨supportedProtocols names, io', phase, lastSentNa⟩, port', ?_, ?_, halo.answered,
      halo.unsupported, hw.trans halo.buffer, ?_, ?_, ?_⟩
    · unfold turn
      rcases hp with rfl | rfl <;> (dsimp only; rw [hpo])
    · exact .inl (hpe (hw.trans halo.buffer) (by rw [hpr]))
    · rw [append_nil] at hf
      exact hf
    · rw [hpr]
      exact halo.bytes
    · rw [hpr]
      exact halo.dropped
  | ended hpr hre hm hd =>
    rename_i io' port'
    refine ⟨.failed .failed, port', ?_, .inr rfl, halo.answered, halo.unsupported, rfl, ⟨rfl, ?_⟩, ?_, ?_⟩
    · unfold turn
      rcases hp with rfl | rfl <;> (dsimp only; rw [hpo])
    · rw [append_nil] at hre
      exact hre
    · rw [hpr]
      exact halo.bytes
    · rw [hpr]
      exact halo.dropped
  | message hpr hw hm => cases hm

section

variable {listener : Listener} {port : Port} (halo : ListenerAlone names recv sent before (.selecting listener) port)
include halo

theorem listener_turn_alone :
    (∃ listener' port', turn (listener, port) = .next (listener', port') ∧
      ListenerAlone names recv sent before (.selecting listener') port') ∨
    ∃ party port', turn (listener, port) = .stop (party, port') ∧
      ListenerAlone names recv sent before party port' := by
  have ht := halo.talk.resolve_right nofun
  generalize hp : Party.selecting listener = party at ht
  cases ht with
  | recvHeader hb hh =>
    cases hp
    exact .inr (listener_alone_reads halo (.inl rfl) fun hb' hh' => .recvHeader hb' (hh'.trans hh))
  | recvMessage hu hb hh =>
    cases hp
    exact .inr (listener_alone_reads halo (.inr rfl) fun hb' hh' => .recvMessage hu hb' (hh'.trans hh))
  | flush hu =>
    cases hp
    rename_i io lastSentNa rejected
    have hb : io.writeBuffer = [] := halo.buffer
    have htu := pollFlush_of_empty port hb
    rcases port.pollFlush_cases with ⟨answers, hf, -, -⟩ | ⟨answers, hf, -⟩
    · rw [hf] at htu
      refine .inr ⟨.selecting ⟨supportedProtocols names, io, .flush none, lastSentNa⟩,
        { port with answers }, ?_, .inl (.flush hu), halo.answered, halo.unsupported,
        hb, halo.link, halo.bytes, halo.dropped⟩
      unfold turn
      dsimp only
      rw [htu]
    · rw [hf] at htu
      refine .inl ⟨⟨supportedProtocols names, io, .recvMessage, lastSentNa⟩,
        { port with held := [], passed := port.passed ++ port.held, answers }, ?_,
        .inl (.recvMessage hu hb rfl), halo.answered, halo.unsupported, hb, halo.link,
        ?_, halo.dropped⟩
      · unfold turn
        dsimp only
        rw [htu]
      · show port.passed ++ port.held ++ [] = before
        rw [append_nil]
        exact halo.bytes
  | sendHeader => exact absurd halo.answered (by decide)
  | reject hu hb | accept hu hn hb =>
    have hlen := halo.answered
    rw [proposals_append, length_append, length_rejections] at hlen
    exact absurd hlen (Nat.succ_ne_self _)
  | confirm hu hn =>
    refine absurd hn (halo.unsupported _ ?_)
    rw [proposals_append]
    exact mem_append_right _ mem_cons_self
  | settled => cases hp

theorem listener_poll_alone : ListenerAlone names recv sent before (listener.poll port).1 (listener.poll port).2 :=
  poll_keeps (fun _ _ => listener_turn_alone) halo

end
end ListenerAlone
end RustLibp2p.Multistream
