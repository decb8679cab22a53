import RustLibp2p.MultistreamAccounts

/-! A dialer with one protocol that settles on it at once: its application writes behind the proposal, and the
answers of the listener are read with the first bytes that the application reads. -/

namespace RustLibp2p.Multistream
open PollIo LengthDelimited List Message

variable {names : List String} {p : Protocol} {dialerPayload listenerPayload : List UInt8} {system : System}
  {heardL queueL heardD queueD : List Message} {extraL extraD : List UInt8}

section LazyAccounts
open Dialer

/-- The messages that such a dialer has sent and heard. -/
inductive LazyTalk (p : Protocol) : Party Dialer → List Message → List Message → Prop
  | start {io : LengthDelimited} (hbuffer : io.writeBuffer = []) :
      LazyTalk p (.selecting ⟨.v1Lazy, [p.name], io, .sendHeader⟩) [] []
  | expecting {io : LengthDelimited} {header : Option HeaderLine} {heard : List Message}
      (hheard : Negotiated.Heard header heard) :
      LazyTalk p (.settled p.name (.expecting io header p)) (proposals [p]) heard
  | completed : LazyTalk p (.settled p.name .completed) (proposals [p]) (proposals [p])

variable [UnsignedVarint] {io : LengthDelimited}

theorem poll_lazy (hn : ValidName p.name) (hb : io.writeBuffer = [])
    (port : Port) : poll ⟨.v1Lazy, [p.name], io, .sendHeader⟩ port =
      (.settled p.name (.expecting { io with writeBuffer := wire ((proposals [p]).map encode) } (some .v1) p),
        port) := by
  have hh : turn (⟨.v1Lazy, [p.name], io, .sendHeader⟩, port) =
      .next (⟨.v1Lazy, [], { io with writeBuffer := wire [encode (.header .v1)] }, .sendProtocol p.name⟩, port) := by
    unfold turn
    dsimp only
    rw [pollReady_of_lt port (by rw [hb]; decide)]
    dsimp only
    rw [show HeaderLine.ofVersion .v1Lazy = .v1 from rfl, startSend_of_sendable io sendable_header, hb]
    rfl
  have hs : (wire [encode (.header .v1)]).length < maxFrameSize := length_wire_header
  have hp : turn (⟨.v1Lazy, [], { io with writeBuffer := wire [encode (.header .v1)] }, .sendProtocol p.name⟩, port) =
      .stop (.settled p.name
        (.expecting { io with writeBuffer := wire ((proposals [p]).map encode) } (some .v1) p), port) := by
    unfold turn
    dsimp only
    rw [pollReady_of_lt port hs]
    rw [Protocol.tryFromStr_name]
    dsimp only
    rw [startSend_of_sendable _ (sendable_protocol hn)]
    dsimp only
    rw [if_neg (by simp), ← wire_append]
    rfl
  unfold poll loop
  rw [hh]
  dsimp only
  unfold loop
  rw [hp]
  rfl

variable (names p dialerPayload listenerPayload)

/-- The account of such a dialer, together with that of the listener. -/
structure LazyAccounts (system : System) (heardL queueL heardD queueD : List Message) (extraL extraD : List UInt8) :
    Prop where
  dialer : LazyTalk p system.dialer.party (heardL ++ queueL) heardD
  listens : Listens names dialerPayload listenerPayload system heardL queueL heardD queueD extraL extraD
  proposed : extraL ≠ [] → heardL ++ queueL = proposals [p]

def LazyAgreeing (system : System) : Prop :=
  ∃ heardL queueL heardD queueD extraL extraD,
    LazyAccounts names p dialerPayload listenerPayload system heardL queueL heardD queueD extraL extraD

variable {names p dialerPayload listenerPayload}

theorem lazyAgreeing_start : LazyAgreeing names p dialerPayload listenerPayload
      (.start .v1Lazy [p.name] names dialerPayload listenerPayload) := by
  refine ⟨[], [], [], [], [], [], .start rfl, ⟨.recvHeader rfl rfl, ⟨?_, rfl⟩, ⟨?_, rfl⟩, absurd rfl,
    rfl, rfl⟩, absurd rfl⟩
  all_goals exact .done rfl rfl rfl

variable {party : Party Dialer} {sent heard : List Message}

section

variable (htalk : LazyTalk p party sent heard)
include htalk

omit [UnsignedVarint] in
theorem LazyTalk.sent_cases : sent = [] ∨ sent = proposals [p] := by
  cases htalk with
  | start => exact .inl rfl
  | expecting | completed => exact .inr rfl

theorem LazyTalk.proposed (hn : ValidName p.name) : Proposed names sent := by
  have he : Unsupported names ([p] : List Protocol).dropLast := fun _ h => absurd h not_mem_nil
  rcases htalk.sent_cases with rfl | rfl
  · exact ⟨fun _ h => absurd h not_mem_nil, [p], nil_prefix, he⟩
  refine ⟨fun msg hm => ?_, [p], prefix_rfl, he⟩
  rcases mem_cons.1 hm with rfl | hm
  · exact sendable_header
  · rw [mem_singleton.1 hm]
    exact sendable_protocol hn

omit [UnsignedVarint] in
theorem LazyTalk.not_dropped :
    (∃ dialer, party = .selecting dialer) ∨ ∃ stream, party = .settled p.name stream ∧ stream ≠ .invalid := by
  cases htalk with
  | start => exact .inl ⟨_, rfl⟩
  | expecting | completed => exact .inr ⟨_, rfl, nofun⟩

end

namespace LazyAccounts

/-- What the dialer's operation leaves: the accounts, without anything read as long as the protocol is not
supported, or in this case a failed read. -/
def DialerActed (names : List String) (p : Protocol) (dialerPayload listenerPayload : List UInt8)
    (system : System) (received : List UInt8) : Prop :=
  LazyAgreeing names p dialerPayload listenerPayload system ∧ (p.name ∉ names → system.dialer.received = received) ∨
  p.name ∉ names ∧ system.dialer.received = received ∧ system.dialer.readError ≠ none

section

variable (hacc : LazyAccounts names p dialerPayload listenerPayload system heardL queueL heardD queueD extraL
  extraD)
include hacc

theorem dialer_open : system.dialer.dropped = false := by
  unfold End.dropped
  rcases hacc.dialer.not_dropped with ⟨_, h⟩ | ⟨stream, h, hv⟩
  · rw [h]
  rw [h]
  cases stream with
  | invalid => exact absurd rfl hv
  | _ => rfl

theorem expects (hn : ValidName p.name) (hs : heardL ++ queueL = proposals [p]) :
    Negotiated.Expects p (answer names (.protocol p)) (heardD ++ queueD)
      (system.listener.held ++ system.listener.party.buffer Listener.io) extraD false := by
  have htalk := hacc.listens.talk
  have hp : Proposed names (heardL ++ queueL) := hacc.dialer.proposed hn
  refine ⟨?_, ?_, fun hlen => ?_, nofun, ?_⟩
  · have ha := hacc.listens.answers
    rw [hs] at ha
    exact ha
  · exact htalk.sendable fun msg hm => hp.sendable msg (mem_append_left _ hm)
  · by_contra he
    obtain ⟨_, hse⟩ := hacc.listens.settled he
    rw [hse] at htalk
    obtain ⟨_, _, -, hr, -, -⟩ := htalk.accepted
    rw [hr, length_append] at hlen
    exact absurd hlen (Nat.not_lt_of_le (Nat.succ_le_succ (Nat.succ_pos _)))
  · by_cases hsu : p.name ∈ names
    · exact .inl ⟨answer_of_mem hsu, rfl⟩
    · exact .inr (answer_of_not_mem hsu)

theorem dialer_started (hn : ValidName p.name)
    (hp : system.dialer.party = .selecting ⟨.v1Lazy, [p.name], io, .sendHeader⟩) (hb : io.writeBuffer = [])
    (hs : heardL ++ queueL = []) (hh : heardD = []) (op : Op) (ans : List Answer) :
    DialerActed names p dialerPayload listenerPayload (system.step ⟨.dialer, op, ans⟩) system.dialer.received := by
  have hl := hacc.listens
  obtain rfl : extraL = [] := by
    by_contra he
    cases hs.symm.trans (hacc.proposed he)
  obtain ⟨rfl, rfl⟩ := append_eq_nil_iff.1 hs
  subst hh
  unfold System.step
  by_cases hpo : op = .poll
  · subst hpo
    rw [End.act_poll poll hp, poll_lazy hn hb]
    have hm : ∃ listener, system.listener.party = .selecting listener := by
      have htalk := hl.talk
      rcases htalk.party_cases with hse | ⟨_, hst⟩
      · exact hse
      · rw [hst] at htalk
        obtain ⟨_, _, hno, -⟩ := htalk.accepted
        cases hno
    have hli := hl.toDialer.link
    rw [hp] at hli
    refine .inl ⟨⟨[], [] ++ proposals [p], [], queueD, [], extraD, .expecting .nothing, ?_, absurd rfl⟩, fun _ => rfl⟩
    refine hl.dialer_spoke ⟨rfl, rfl, rfl, ?_⟩ rfl ⟨InFrame.of_reader hli rfl rfl, hl.toDialer.payload_eq⟩ (.inr hm)
    rw [hp]
    show system.dialer.held ++ wire _ = system.dialer.held ++ io.writeBuffer ++ wire _
    rw [hb, append_nil]
  · obtain ⟨_, _, hex, hc⟩ := End.act_exchanges poll system.listener.dropped ans
      (fun _ _ h => by cases hp.symm.trans h) (by rintro ⟨_, -, h⟩; exact hpo h)
    obtain ⟨rfl, rfl⟩ := hc.resolve_right fun ⟨_, h⟩ => by cases hp.symm.trans h
    obtain ⟨extraD', -, hl'⟩ := hl.dialer_exchanged hex (.inl ⟨rfl, rfl⟩)
    refine .inl ⟨⟨[], [], [], queueD, [], extraD', ?_, hl', absurd rfl⟩, fun _ => ?_⟩
    · rw [hex.party, hp]
      exact .start hb
    · exact hex.received.trans (append_nil _)

theorem dialer_expecting (hn : ValidName p.name) {header : Option HeaderLine}
    (hp : system.dialer.party = .settled p.name (.expecting io header p))
    (hh : Negotiated.Heard header heardD) (hs : heardL ++ queueL = proposals [p]) (op : Op)
    (ans : List Answer) :
    DialerActed names p dialerPayload listenerPayload (system.step ⟨.dialer, op, ans⟩) system.dialer.received := by
  have hl := hacc.listens
  have hli := hl.toDialer.link
  rw [hp] at hli
  unfold System.step
  rw [hl.listener_open]
  have ha := End.act_expecting hl.noError.1 (hacc.expects hn hs) hh rfl hli poll ans op hp
  generalize system.dialer.act poll false ans op = output at ha ⊢
  rcases ha with hr | ⟨io', taken, hp', hpu⟩
  · cases hr with
    | waiting hp' hh' ht hf hb htoW hre hreE =>
      rename_i io' header' heard' queue' behind passed
      refine .inl ⟨⟨heardL, queueL, heard', queue', extraL ++ [], extraD, ?_, ?_, fun _ => hs⟩, fun _ => hre⟩
      · rw [hp', hs]
        exact .expecting hh'
      refine hl.dialer_moved ?_ htoW.symm ht ⟨?_, ?_⟩ id hreE
      · rw [hp, hp', append_nil]
        exact hb
      · rw [hp']
        exact hf
      · rw [hre]
        exact hl.toDialer.payload_eq
    | confirmed hp' hrp ht he hrs hb htoW hre hreE =>
      rename_i chunk extra' behind passed
      have hsu : p.name ∈ names := by
        by_contra hu
        rw [answer_of_not_mem hu] at hrp
        cases hrp
      rw [hrp] at ht
      refine .inl ⟨⟨heardL, queueL, proposals [p], [], extraL ++ [], extra', ?_, ?_, fun _ => hs⟩, (absurd hsu)⟩
      · rw [hp', hs]
        exact .completed
      refine hl.dialer_moved ?_ htoW.symm ?_ ⟨?_, ?_⟩ ?_ hreE
      · rw [hp, hp', append_nil]
        show passed ++ (behind.held ++ []) = _
        rw [append_nil]
        exact hb
      · rw [append_nil, ht]
        rfl
      · rw [hp']
        exact ⟨rfl, hrs⟩
      · rw [hre, hl.toDialer.payload_eq, he]
        simp only [append_assoc]
      · rw [he]
        exact append_ne_nil_of_right_ne_nil chunk
    | failed hrp hre hreE =>
      refine .inr ⟨fun hsu => ?_, hre, hreE⟩
      rw [answer_of_mem hsu] at hrp
      cases hrp
  · obtain ⟨behind, passed⟩ := output
    refine .inl ⟨⟨heardL, queueL, heardD, queueD, extraL ++ taken, extraD, ?_, ?_, fun _ => hs⟩, fun _ => hpu.received⟩
    · rw [hp', hs]
      exact .expecting hh
    refine hl.dialer_moved ?_ hpu.toWrite rfl ⟨?_, ?_⟩ id hpu.readError
    · rw [hp, hp']
      exact hpu.sent
    · rw [hp', hpu.arrived]
      exact InFrame.of_reader hli hpu.readState hpu.readBuffer
    · rw [hpu.received]
      exact hl.toDialer.payload_eq

theorem supported_of_confirmed (hh : heardD = proposals [p])
    (hs : heardL ++ queueL = proposals [p]) : p.name ∈ names := by
  by_contra hu
  have hr : protocol p ∈ heardD ++ queueD := by
    rw [hh]
    exact mem_append_left _ (mem_cons_of_mem _ mem_cons_self)
  have ha := hacc.listens.answers.subset hr
  have hall : Unsupported names [p] := fun q hq => by rw [mem_singleton.1 hq]; exact hu
  rw [hs, map_answer_proposals hall] at ha
  exact not_mem_rejections ha

theorem dialer_completed (hp : system.dialer.party = .settled p.name .completed) (hh : heardD = proposals [p])
    (hs : heardL ++ queueL = proposals [p]) (op : Op) (ans : List Answer) :
    DialerActed names p dialerPayload listenerPayload (system.step ⟨.dialer, op, ans⟩) system.dialer.received := by
  have hc : ∀ prot stream, system.dialer.party = .settled prot stream → stream = .completed := by
    intro prot stream h
    cases hp.symm.trans h
    rfl
  obtain ⟨taken, _, he, hca⟩ := End.act_exchanges poll system.listener.dropped ans hc
    (by rintro ⟨_, h, -⟩; cases hp.symm.trans h)
  obtain ⟨extraD', -, hl⟩ := hacc.listens.dialer_exchanged he hca
  refine .inl ⟨⟨heardL, queueL, heardD, queueD, extraL ++ taken, extraD', ?_, hl, fun _ => hs⟩,
    fun hu => absurd (hacc.supported_of_confirmed hh hs) hu⟩
  unfold System.step
  rw [he.party, hp, hs, hh]
  exact .completed

theorem dialer_acted (hn : ValidName p.name) (op : Op) (ans : List Answer) :
    DialerActed names p dialerPayload listenerPayload (system.step ⟨.dialer, op, ans⟩) system.dialer.received := by
  have htalk := hacc.dialer
  generalize hs : heardL ++ queueL = sent at htalk
  generalize hp : system.dialer.party = party at htalk
  generalize hh : heardD = heard at htalk
  cases htalk with
  | start hb => exact hacc.dialer_started hn hp hb hs hh op ans
  | expecting hhe => exact hacc.dialer_expecting hn hp (hh ▸ hhe) hs op ans
  | completed => exact hacc.dialer_completed hp hh hs op ans

/-- The listener does anything, as long as no bytes of the application come behind a protocol that it does not
support. -/
theorem listener_acted (hn : ValidName p.name) (he : extraL ≠ [] → p.name ∈ names) (op : Op) (ans : List Answer) :
    LazyAgreeing names p dialerPayload listenerPayload (system.step ⟨.listener, op, ans⟩) := by
  have htalk := hacc.dialer
  have hr : Reading system ∨ heardD.length = (heardL ++ queueL).length := by
    generalize heardL ++ queueL = sent at htalk ⊢
    generalize hp : system.dialer.party = party at htalk
    cases htalk with
    | start => exact .inl (.inl ⟨_, hp⟩)
    | expecting => exact .inl (.inr ⟨_, _, _, _, hp⟩)
    | completed => exact .inr rfl
  have hs : extraL ≠ [] → ∃ q, .protocol q ∈ heardL ++ queueL ∧ q.name ∈ names := by
    intro h
    refine ⟨p, ?_, he h⟩
    rw [hacc.proposed h]
    exact mem_cons_of_mem _ mem_cons_self
  obtain ⟨heardL', queueL', new, extraL', extraD', hh, hm, hl⟩ :=
    hacc.listens.listener_acted (hacc.dialer.proposed hn) hs hr hacc.dialer_open op ans
  refine ⟨heardL', queueL', heardD, queueD ++ new, extraL', extraD', ?_, hl, fun h => ?_⟩
  · rw [hh]
    exact hacc.dialer
  · rw [hh]
    exact hacc.proposed (hm h)

end
end LazyAccounts
end LazyAccounts

/-! A dialer that has settled on a protocol which the listener does not support. The listener takes what
the dialer's application writes for messages, and whatever it makes of them comes behind the rejection.
-/
open Listener

/-- The answers to a proposal that is not supported. -/
def refusal : List Message := [.header .v1, .notAvailable]

variable {listener : Listener} {heard sent : List Message}

theorem ListenerTalk.reading {names : List String} {held : List UInt8} (ht : ListenerTalk names held
    (.selecting listener) heard sent)
    (hp : listener.phase = .recvHeader ∨ listener.phase = .recvMessage) :
    sent = heard.map (answer names) ∧ listener.io.writeBuffer = [] ∧ held = [] := by
  cases ht with
  | recvHeader hb hh => exact ⟨rfl, hb, hh⟩
  | recvMessage huns hb hh => exact ⟨(map_answer_proposals huns).symm, hb, hh⟩
  | _ => rcases hp with h | h <;> cases h

section Refusal

variable [UnsignedVarint] (names p dialerPayload listenerPayload)

/-- The refusal has arrived at the dialer, which has not read all of it. -/
structure Rejected (system : System) : Prop where
  told : ∃ io header heard queue extra, system.dialer.party = .settled p.name (.expecting io header p) ∧
    Negotiated.Heard header heard ∧ heard ++ queue = refusal ∧
    InFrame io system.dialer.arrived extra (queue.map encode)
  noError : system.dialer.readError = none
  unread : system.dialer.received = []

/-- The refusal is still to arrive, or has arrived, or was read. -/
def Refusing (system : System) : Prop :=
  LazyAgreeing names p dialerPayload listenerPayload system ∧ system.dialer.received = [] ∨
  Rejected p system ∨
  system.dialer.received = [] ∧ system.dialer.readError ≠ none

/-- During a poll of the listener: the refusal is among what was passed on. -/
def Told (dialer : End Dialer) (heard : List Message) (port : Port) : Prop :=
  ∃ queue extra, heard ++ queue = refusal ∧ dialer.party.Link Dialer.io (dialer.arrived ++ port.passed) extra queue

variable {names p dialerPayload listenerPayload}

theorem Told.of_passed {dialer : End Dialer} {heard : List Message} {port port' : Port} (ht : Told dialer heard port)
    (hp : port.passed <+: port'.passed) : Told dialer heard port' := by
  obtain ⟨queue, extra, hall, hl⟩ := ht
  obtain ⟨more, hm⟩ := hp
  refine ⟨queue, extra ++ more, hall, ?_⟩
  rw [← hm, ← append_assoc]
  exact hl.append_extra more

/-- The listener's account during a poll, until the refusal is passed on. -/
def Tells (names : List String) (system : System) (heard sent : List Message) (extra : List UInt8)
    (heardD : List Message) (party : Party Listener) (port : Port) : Prop :=
  ListenerHolds names heard sent (system.listener.held ++ system.listener.party.buffer io)
    (system.dialer.held ++ system.dialer.party.buffer Dialer.io) extra party port ∨
  Told system.dialer heardD port

theorem turn_told {extra : List UInt8} {port : Port} (ht : Told system.dialer heardD port) :
    (∃ listener' port', turn (listener, port) = .next (listener', port') ∧
      Tells names system heard sent extra heardD (.selecting listener') port') ∨
    ∃ party port', turn (listener, port) = .stop (party, port') ∧
      Tells names system heard sent extra heardD party port' := by
  have hp := turn_passed listener port
  cases htu : turn (listener, port) with
  | next st =>
    rw [htu] at hp
    exact .inl ⟨st.1, st.2, rfl, .inr (ht.of_passed hp)⟩
  | stop res =>
    rw [htu] at hp
    exact .inr ⟨res.1, res.2, rfl, .inr (ht.of_passed hp)⟩

namespace LazyAccounts

section

variable (hacc : LazyAccounts names p dialerPayload listenerPayload system heardL queueL heardD queueD extraL [])
  (hname : ValidName p.name) (huns : p.name ∉ names) (hsent : heardL ++ queueL = proposals [p]) (hred : Reading system)
include hacc hname huns hsent hred

theorem listener_turn_tells {port : Port}
    (ht : Tells names system (heardL ++ queueL) (heardD ++ queueD) extraL heardD (.selecting listener) port) :
    (∃ listener' port', turn (listener, port) = .next (listener', port') ∧
      Tells names system (heardL ++ queueL) (heardD ++ queueD) extraL heardD (.selecting listener') port') ∨
    ∃ party port', turn (listener, port) = .stop (party, port') ∧
      Tells names system (heardL ++ queueL) (heardD ++ queueD) extraL heardD party port' := by
  rcases ht with ⟨_, queue, new, hta, hh, hl, hb, ho⟩ | hto
  swap
  · exact turn_told hto
  by_cases hr : (listener.phase = .recvHeader ∨ listener.phase = .recvMessage) ∧ queue = []
  · -- everything was read and answered, and the answers were passed on
    obtain ⟨hp, rfl⟩ := hr
    obtain ⟨ha, hbu, hhe⟩ := hta.reading hp
    have hall : Unsupported names [p] := fun q hq => by rw [mem_singleton.1 hq]; exact huns
    rw [append_nil] at hh
    rw [hh, hsent, map_answer_proposals hall, append_assoc] at ha
    refine turn_told ⟨queueD ++ new, [], ha, ?_⟩
    have hpa : port.passed = system.listener.held ++ system.listener.party.buffer io ++ wire (new.map encode) := by
      have hbu' : Party.buffer io (.selecting listener) = [] := hbu
      rw [hhe, hbu', append_nil, append_nil] at hb
      exact hb
    rw [hpa, ← append_assoc]
    exact hacc.listens.toDialer.link.append new (.inr hred)
  · rcases listener_turn_of_talk (hacc.dialer.proposed hname) hta ⟨hh, hl, hb, ho⟩
      (fun hp hqu => absurd ⟨hp, hqu⟩ hr) with
      ⟨listener', port', htu, hho⟩ | ⟨party, port', htu, hho⟩
    · exact .inl ⟨listener', port', htu, .inl hho⟩
    · exact .inr ⟨party, port', htu, .inl hho⟩

theorem listener_poll_tells {fut : Listener} (hp : system.listener.party = .selecting fut)
    (ans : List Answer) : Tells names system (heardL ++ queueL) (heardD ++ queueD) extraL heardD
      (fut.poll (system.listener.port false ans)).1 (fut.poll (system.listener.port false ans)).2 :=
  poll_keeps (fun _ _ => hacc.listener_turn_tells hname huns hsent hred) (.inl (hacc.listens.listenerHolds hp ans))

end

theorem listener_refuses
    (hacc : LazyAccounts names p dialerPayload listenerPayload system heardL queueL heardD queueD extraL extraD)
    (hname : ValidName p.name) (huns : p.name ∉ names) (hu : system.dialer.received = []) (op : Op)
    (ans : List Answer) :
    Refusing names p dialerPayload listenerPayload (system.step ⟨.listener, op, ans⟩) := by
  have hl := hacc.listens
  have ht := hacc.dialer
  by_cases hsent : heardL ++ queueL = []
  · -- nothing was proposed
    refine .inl ⟨hacc.listener_acted hname (fun he => ?_) op ans, hu⟩
    cases hsent.symm.trans (hacc.proposed he)
  replace hsent := ht.sent_cases.resolve_left hsent
  obtain ⟨io, header, hp, hh⟩ : ∃ io header,
      system.dialer.party = .settled p.name (.expecting io header p) ∧ Negotiated.Heard header heardD := by
    rw [hsent] at ht
    generalize hp : system.dialer.party = party at ht
    generalize hh : heardD = heard at ht
    cases ht with
    | expecting hhe => exact ⟨_, _, rfl, hhe⟩
    | completed => exact absurd (hacc.supported_of_confirmed hh hsent) huns
  have hred : Reading system := .inr ⟨_, _, _, _, hp⟩
  by_cases hpo : ∃ fut, system.listener.party = .selecting fut ∧ op = .poll
  · obtain ⟨fut, hli, rfl⟩ := hpo
    obtain rfl := hl.extra_nil hli
    have hte := hacc.listener_poll_tells hname huns hsent hred hli ans
    unfold System.step
    rw [hacc.dialer_open, End.act_poll poll hli]
    generalize fut.poll (system.listener.port false ans) = output at hte ⊢
    obtain ⟨_, _⟩ := output
    rcases hte with hho | ⟨queue, extra, hall, hln⟩
    · obtain ⟨heardL', queueL', new, hh', hl'⟩ := hl.of_holds (.inl hred) hho
      refine .inl ⟨⟨heardL', queueL', heardD, queueD ++ new, extraL, [], ?_, hl', fun h => ?_⟩, hu⟩
      · rw [hh']
        exact hacc.dialer
      · rw [hh', hsent]
    · rw [hp] at hln
      exact .inr (.inl ⟨⟨io, header, heardD, queue, extra, hp, hh, hall, hln⟩, hl.noError.1, hu⟩)
  · obtain ⟨taken, _, hex, hc⟩ := End.act_exchanges poll system.dialer.dropped ans
      (fun prot stream h => hl.talk.completed h) hpo
    obtain ⟨extraL', rfl, hl'⟩ := hl.listener_exchanged hex hc
    exact .inl ⟨⟨heardL, queueL, heardD, queueD, extraL', extraD ++ taken, hacc.dialer, hl', fun _ => hsent⟩, hu⟩

end LazyAccounts

/-! ### After the refusal has arrived -/

theorem expects_refusal (extra : List UInt8) (dropped : Bool) :
    Negotiated.Expects p .notAvailable refusal [] extra dropped := by
  refine ⟨prefix_rfl, fun msg hm => ?_, fun h => absurd h (by decide), fun _ => ⟨rfl, rfl⟩, .inr rfl⟩
  rcases mem_cons.1 hm with rfl | hm
  · exact sendable_header
  · rw [mem_singleton.1 hm]
    exact sendable_notAvailable

theorem Rejected.dialer_acted (hr : Rejected p system) (op : Op) (ans : List Answer) :
    Refusing names p dialerPayload listenerPayload (system.step ⟨.dialer, op, ans⟩) := by
  obtain ⟨io, header, heard, queue, extra, hp, hh, hall, hf⟩ := hr.told
  have hf' : InFrame io (system.dialer.arrived ++ []) extra (queue.map encode) := by
    rw [append_nil]
    exact hf
  have ha := End.act_expecting hr.noError (expects_refusal extra system.listener.dropped) hh hall hf'
    Dialer.poll ans op hp
  unfold System.step
  generalize system.dialer.act Dialer.poll system.listener.dropped ans op = output at ha ⊢
  rcases ha with hre | ⟨io', _, hp', hpu⟩
  · cases hre with
    | waiting hp' hh' ht hf'' hb htoW hrc hreE =>
      rw [append_nil] at hf''
      exact .inr (.inl ⟨⟨_, _, _, _, extra, hp', hh', ht, hf''⟩, hreE.trans hr.noError, hrc.trans hr.unread⟩)
    | confirmed hp' hrp => cases hrp
    | failed hrp hrc hreE => exact .inr (.inr ⟨hrc.trans hr.unread, hreE⟩)
  · refine .inr (.inl ⟨⟨io', header, heard, queue, extra, hp', hh, hall, ?_⟩,
      hpu.readError.trans hr.noError, hpu.received.trans hr.unread⟩)
    rw [hpu.arrived]
    exact hf.of_reader hpu.readState hpu.readBuffer

theorem Rejected.arrive (hr : Rejected p system) (listener : End Listener) (bs : List UInt8) :
    Rejected p ⟨system.dialer.arrive bs, listener⟩ := by
  obtain ⟨io, header, heard, queue, extra, hp, hh, hall, hf⟩ := hr.told
  exact { hr with told := ⟨io, header, heard, queue, extra ++ bs, hp, hh, hall, hf.append_extra bs⟩ }

theorem act_after_error {σ : Type} (pollFuture : σ → Port → Party σ × Port) {self : End σ}
    (he : self.readError ≠ none) (remoteDropped : Bool) (ans : List Answer) (op : Op) :
    (self.act pollFuture remoteDropped ans op).1.received = self.received ∧
      (self.act pollFuture remoteDropped ans op).1.readError = self.readError := by
  rcases self.act_cases pollFuture remoteDropped ans op with
    heq | ⟨future, -, -, heq⟩ | ⟨count, -, heq⟩ | ⟨protocol, stream, -, ⟨-, heq⟩ | ⟨len, -, heq⟩ | ⟨-, heq⟩⟩
  · rw [heq]
    exact ⟨rfl, rfl⟩
  · rw [heq]
    exact ⟨rfl, rfl⟩
  · rw [heq]
    exact ⟨rfl, rfl⟩
  · rw [heq]
    unfold End.write
    split
    · exact ⟨rfl, rfl⟩
    · split <;> exact ⟨rfl, rfl⟩
  · rw [heq]
    unfold End.read
    rw [if_pos (Option.isSome_iff_ne_none.2 he)]
    exact ⟨rfl, rfl⟩
  · rw [heq]
    exact ⟨rfl, rfl⟩

theorem refusing_step (hname : ValidName p.name) (huns : p.name ∉ names)
    (hr : Refusing names p dialerPayload listenerPayload system) (act : Action) :
    Refusing names p dialerPayload listenerPayload (system.step act) := by
  obtain ⟨side, op, ans⟩ := act
  rcases hr with ⟨⟨_, _, _, _, _, _, hacc⟩, hu⟩ | hre | ⟨hu, he⟩
  · cases side with
    | dialer =>
      rcases hacc.dialer_acted hname op ans with ⟨ha, hrc⟩ | ⟨-, hrc, he⟩
      · exact .inl ⟨ha, (hrc huns).trans hu⟩
      · exact .inr (.inr ⟨hrc.trans hu, he⟩)
    | listener => exact hacc.listener_refuses hname huns hu op ans
  · cases side with
    | dialer => exact hre.dialer_acted op ans
    | listener => exact .inr (.inl (hre.arrive _ _))
  cases side with
  | dialer =>
    obtain ⟨hrc, hreE⟩ := act_after_error Dialer.poll he system.listener.dropped ans op
    exact .inr (.inr ⟨hrc.trans hu, by rw [← hreE] at he; exact he⟩)
  | listener => exact .inr (.inr ⟨hu, he⟩)

end Refusal

/-! Optimistic negotiation: a dialer that uses the stream before its only protocol is confirmed. -/
open Fairness Multistream.System

section Negotiation

variable [UnsignedVarint]

theorem lazyAgreeing_step (hn : ValidName p.name) (hs : p.name ∈ names)
    (ha : LazyAgreeing names p dialerPayload listenerPayload system) (act : Action) :
    LazyAgreeing names p dialerPayload listenerPayload (system.step act) := by
  obtain ⟨_, _, _, _, _, _, hac⟩ := ha
  obtain ⟨side, op, ans⟩ := act
  cases side with
  | dialer =>
    rcases hac.dialer_acted hn op ans with ⟨ha, -⟩ | ⟨hu, -⟩
    · exact ha
    · exact absurd hs hu
  | listener => exact hac.listener_acted hn (fun _ => hs) op ans

/-- The dialer uses no other protocol, nobody has come to anything else, and nothing else was read than what the
other side wrote. -/
structure LazyConsistent (name : String) (dialerPayload listenerPayload : List UInt8) (system : System) : Prop where
  dialer : (∃ dialer, system.dialer.party = .selecting dialer) ∨
    ∃ stream, system.dialer.party = .settled name stream ∧ stream ≠ .invalid
  listener : system.listener.party.Agrees (some name)
  dialer_reads : system.dialer.received <+: listenerPayload
  listener_reads : system.listener.received <+: dialerPayload
  noError : system.dialer.readError = none ∧ system.listener.readError = none

theorem lazyConsistent_of_agreeing (ha : LazyAgreeing names p dialerPayload listenerPayload system) :
    LazyConsistent p.name dialerPayload listenerPayload system := by
  obtain ⟨heardL, queueL, _, _, _, _, hac⟩ := ha
  have ht := hac.listens.talk
  refine ⟨hac.dialer.not_dropped, ?_, hac.listens.toDialer.received_begins,
    hac.listens.toListener.received_begins, hac.listens.noError⟩
  rcases ht.party_cases with ⟨_, h⟩ | ⟨_, h⟩
  · rw [h]
    trivial
  rw [h] at ht ⊢
  obtain ⟨_, q, hh, -, rfl, -⟩ := ht.accepted
  have hs : heardL ++ queueL = proposals [p] := by
    refine hac.dialer.sent_cases.resolve_left fun hn => ?_
    rw [hh] at hn
    cases hn
  rw [hh] at hs
  obtain ⟨_, hall, -⟩ := proposals_append_eq hs
  have hq : q ∈ [p] := by
    rw [hall]
    exact mem_append_left _ (mem_append_right _ mem_cons_self)
  rw [mem_singleton.1 hq]
  exact ⟨rfl, rfl⟩

theorem LazyAccounts.busy
    (ha : LazyAccounts names p dialerPayload listenerPayload system heardL queueL heardD queueD extraL extraD)
    (hu : system.dialer.party ≠ .settled p.name .completed) : system.Busy := by
  have ht := ha.dialer
  generalize hs : heardL ++ queueL = sent at ht
  generalize hp : system.dialer.party = party at ht
  cases ht with
  | start => exact .inl ⟨.poll, _, hp, fun hst => nomatch hst.1⟩
  | expecting hh =>
    rename_i io header
    by_cases hst : Negotiated.Stuck (.expecting io header p) (system.dialer.port system.listener.dropped [])
    · obtain ⟨har, hsr | ⟨hb, hhe, -⟩⟩ := hst
      · cases hsr
      refine .inr (ha.listens.busy_of_waiting hhe ?_ har ?_)
      · rw [hp]
        exact hb
      · rw [hs]
        exact hh.length_lt
    · exact .inl ⟨.read, _, _, hp, ha.listens.noError.1, hst⟩
  | completed => exact absurd hp hu

theorem busy_of_lazyAgreeing (ha : LazyAgreeing names p dialerPayload listenerPayload system)
    (hu : ¬ Finished (some p.name) dialerPayload listenerPayload system) : system.Busy := by
  have hc := lazyConsistent_of_agreeing ha
  obtain ⟨heardL, queueL, heardD, _, _, _, hac⟩ := ha
  by_cases hpa : system.dialer.party = .settled p.name .completed
  · have hh : heardD = proposals [p] := by
      have ht := hac.dialer
      generalize heardL ++ queueL = sent at ht
      rw [hpa] at ht
      cases ht
      rfl
    have hp : .protocol p ∈ heardD := hh ▸ mem_cons_of_mem _ mem_cons_self
    refine hac.listens.busy_of_completed hpa hp fun prot hl => ?_
    have hag := hc.listener
    rw [hl] at hag
    by_contra hr
    rw [not_or, not_not, not_not] at hr
    refine hu ⟨hpa, ?_, hr⟩
    rw [hl, Option.some.inj hag.1]
  · exact hac.busy hpa

/-- Nothing was read, and as long as no read has failed every read is pending or fails. -/
structure Unread (system : System) : Prop where
  nothing : system.dialer.received = []
  reads : system.dialer.readError = none → ∀ protocol stream, system.dialer.party = .settled protocol stream →
    ∀ answers len, (stream.pollRead (system.dialer.port system.listener.dropped answers) len).1 = .pending ∨
      ∃ error, (stream.pollRead (system.dialer.port system.listener.dropped answers) len).1 = .ready (.error error)

theorem unread_of_refusing (hn : ValidName p.name) (hu : p.name ∉ names)
    (hr : Refusing names p dialerPayload listenerPayload system) : Unread system := by
  rcases hr with ⟨⟨heardL, queueL, heardD, queueD, _, extraD, ha⟩, hun⟩ | hre | ⟨hun, he⟩
  · refine ⟨hun, fun _ prot stream hp ans len => ?_⟩
    have ht := ha.dialer
    have hl := ha.listens.toDialer.link
    generalize hs : heardL ++ queueL = sent at ht
    generalize hh : heardD = heard at ht
    rw [hp] at ht hl
    cases ht with
    | expecting hhe =>
      have hex := ha.expects hn hs
      rw [answer_of_not_mem hu, ← ha.listens.listener_open] at hex
      have hpo : Negotiated.Expects p .notAvailable (heardD ++ queueD) _ extraD
        (system.dialer.port system.listener.dropped ans).remoteDropped := hex
      exact Negotiated.pollRead_rejected hpo (hh ▸ hhe) rfl hl len
    | completed => exact absurd (ha.supported_of_confirmed hh hs) hu
  · refine ⟨hre.unread, fun _ prot stream hp ans len => ?_⟩
    obtain ⟨io, _, heard, queue, extra, hp', hh, hall, hf⟩ := hre.told
    cases hp'.symm.trans hp
    have hpo : Negotiated.Expects p .notAvailable refusal [] extra
      (system.dialer.port system.listener.dropped ans).remoteDropped := expects_refusal extra _
    have hf' : InFrame io ((system.dialer.port system.listener.dropped ans).incoming ++ []) extra
        (queue.map Message.encode) := by
      rw [append_nil]
      exact hf
    exact Negotiated.pollRead_rejected hpo hh hall hf' len
  · exact ⟨hun, fun hno => absurd hno he⟩

theorem busy_of_refusing (hu : p.name ∉ names)
    (hr : Refusing names p dialerPayload listenerPayload system) (hn : system.dialer.readError = none) :
    system.Busy := by
  rcases hr with ⟨⟨heardL, queueL, heardD, _, _, _, ha⟩, -⟩ | hre | ⟨-, he⟩
  · refine ha.busy fun hp => ?_
    have ht := ha.dialer
    generalize hs : heardL ++ queueL = sent at ht
    generalize hh : heardD = heard at ht
    rw [hp] at ht
    cases ht
    exact hu (ha.supported_of_confirmed hh hs)
  · obtain ⟨_, _, heard, queue, _, hp, hh, hall, hf⟩ := hre.told
    refine .inl ⟨.read, _, _, hp, hn, fun hst => ?_⟩
    have har : system.dialer.arrived = [] := hst.1
    have hlen := congrArg length hall
    rw [length_append] at hlen
    cases queue with
    | nil => exact absurd hlen (Nat.ne_of_lt hh.length_lt)
    | cons => exact hf.rest_ne_nil har
  · exact absurd hn he

/-- A dialer with one protocol settles on it at its first poll, and its application may use the stream at once.
If the listener supports the protocol, then whatever the transport does each application reads nothing but what
the other writes, and if the transport and the applications go on both sides complete and everything is read. If
the listener does not support it, the dialer's application never reads a byte, and if the transport and the
applications go on its first read fails. -/
theorem lazy_negotiation {name : String} (hvalid : ValidName name) (listenerProtocols : List String)
    (dialerPayload listenerPayload : List UInt8) : (name ∈ listenerProtocols →
      (∀ schedule time, LazyConsistent name dialerPayload listenerPayload (stateAt step
          (.start .v1Lazy [name] listenerProtocols dialerPayload listenerPayload) schedule time)) ∧
      ∀ schedule, Fair Helps schedule → ∃ time, Finished (some name) dialerPayload listenerPayload
          (stateAt step (.start .v1Lazy [name] listenerProtocols dialerPayload listenerPayload) schedule time)) ∧
    (name ∉ listenerProtocols →
      (∀ schedule time, Unread (stateAt step
          (.start .v1Lazy [name] listenerProtocols dialerPayload listenerPayload) schedule time)) ∧
      ∀ schedule, Fair Helps schedule → ∃ time, (stateAt step
          (.start .v1Lazy [name] listenerProtocols dialerPayload listenerPayload) schedule time).dialer.readError ≠
            none) := by
  constructor
  · intro hs
    have hst : LazyAgreeing listenerProtocols hvalid.toProtocol dialerPayload listenerPayload
        (.start .v1Lazy [name] listenerProtocols dialerPayload listenerPayload) := lazyAgreeing_start
    have hse : ∀ system act, LazyAgreeing listenerProtocols hvalid.toProtocol dialerPayload listenerPayload system →
        LazyAgreeing listenerProtocols hvalid.toProtocol dialerPayload listenerPayload (system.step act) :=
      fun system act ha => lazyAgreeing_step hvalid hs ha act
    constructor
    · intro schedule time
      exact lazyConsistent_of_agreeing (stateAt_invariant hse hst schedule time)
    · intro schedule hf
      exact eventually_of_busy hse (fun system => busy_of_lazyAgreeing) hst hf
  · intro hu
    have hst : Refusing listenerProtocols hvalid.toProtocol dialerPayload listenerPayload
        (.start .v1Lazy [name] listenerProtocols dialerPayload listenerPayload) :=
      .inl ⟨lazyAgreeing_start, rfl⟩
    have hse : ∀ system act, Refusing listenerProtocols hvalid.toProtocol dialerPayload listenerPayload system →
        Refusing listenerProtocols hvalid.toProtocol dialerPayload listenerPayload (system.step act) :=
      fun system act hr => refusing_step hvalid hu hr act
    constructor
    · intro schedule time
      exact unread_of_refusing hvalid hu (stateAt_invariant hse hst schedule time)
    intro schedule hf
    have hb : ∀ system, Refusing listenerProtocols hvalid.toProtocol dialerPayload listenerPayload system →
        ¬ system.dialer.readError ≠ none → system.Busy :=
      fun system hr hd => busy_of_refusing hu hr (not_not.1 hd)
    exact eventually_of_busy hse hb hst hf

end Negotiation

/-- A listener that supports the protocol, and one that would take the payload for a proposal that it supports. -/
theorem lazy_negotiation_b : (∃ time, Finished (some "/b") [1, 2] [3]
      (stateAt step (.start .v1Lazy ["/b"] ["/b"] [1, 2] [3]) takeTurns time)) ∧
    ∃ time, (stateAt step
      (.start .v1Lazy ["/b"] ["/c"] [3, 47, 99, 10] [3]) takeTurns time).dialer.readError ≠ none := by
  have hv : ValidName "/b" := by decide +kernel
  exact ⟨((lazy_negotiation hv ["/b"] [1, 2] [3]).1 (by decide)).2 takeTurns takeTurns_fair,
    ((lazy_negotiation hv ["/c"] [3, 47, 99, 10] [3]).2 (by decide)).2 takeTurns takeTurns_fair⟩

end RustLibp2p.Multistream
