import RustLibp2p.MultistreamRank
import RustLibp2p.MultistreamCarriage
import RustLibp2p.MultistreamListenerTalk

/-! The listener's end and what is on the way between the two ends, as long as the negotiation goes well, for any
kind of dialer that makes proposals. -/

namespace RustLibp2p.Multistream
open PollIo List Listener

/-! ### What a listener's account says -/

variable {protocol : String} {listener : Listener}

section Talk

variable {names : List String} {held : List UInt8} {party : Party Listener} {heard sent : List Message}

theorem ListenerTalk.of_held {he' : List UInt8} (htalk : ListenerTalk names held party heard sent)
    (hh : ∀ listener, party = .selecting listener → held = [] → he' = []) :
    ListenerTalk names he' party heard sent := by
  cases htalk with
  | recvHeader hb hn => exact .recvHeader hb (hh _ rfl hn)
  | sendHeader hb => exact .sendHeader hb
  | flush hu => exact .flush hu
  | recvMessage hu hb hn => exact .recvMessage hu hb (hh _ rfl hn)
  | reject hu hb => exact .reject hu hb
  | accept hu hna hb => exact .accept hu hna hb
  | confirm hu hna => exact .confirm hu hna
  | settled hu hna => exact .settled hu hna

variable {stream : Negotiated}

section

variable (htalk : ListenerTalk names held party heard sent)
include htalk

theorem ListenerTalk.answers : sent <+: heard.map (answer names) := by
  have hr : ∀ {rejected : List Protocol} (p : Protocol), Unsupported names rejected →
      (proposals (rejected ++ [p])).map (answer names) = rejections rejected ++ [answer names (.protocol p)] := by
    intro rejected p hu
    rw [proposals_append, map_append, map_answer_proposals hu]
    rfl
  have ha : ∀ {rejected : List Protocol} {p : Protocol}, Unsupported names rejected → p.name ∈ names →
      (proposals (rejected ++ [p])).map (answer names) = rejections rejected ++ [.protocol p] := by
    intro rejected p hu hn
    rw [hr p hu, answer_of_mem hn]
  cases htalk with
  | recvHeader => exact prefix_rfl
  | sendHeader => exact nil_prefix
  | flush hu | recvMessage hu => exact map_answer_proposals hu ▸ prefix_rfl
  | reject hu =>
    rw [map_answer_proposals hu, rejections_append]
    exact prefix_append _ _
  | accept hu =>
    rw [hr _ hu]
    exact prefix_append _ _
  | confirm hu hn | settled hu hn => exact ha hu hn ▸ prefix_rfl

theorem ListenerTalk.sendable [UnsignedVarint] (hh : ∀ msg ∈ heard, msg.Sendable) : ∀ msg ∈ sent, msg.Sendable := by
  intro _ hm
  obtain ⟨asked, ha, rfl⟩ := mem_map.1 (htalk.answers.subset hm)
  have hs := hh asked ha
  unfold answer
  split
  · split
    · exact hs
    · exact Message.sendable_notAvailable
  · exact hs

theorem ListenerTalk.party_cases :
    (∃ listener, party = .selecting listener) ∨ ∃ protocol, party = .settled protocol .completed := by
  cases htalk with
  | settled => exact .inr ⟨_, rfl⟩
  | _ => exact .inl ⟨_, rfl⟩

theorem ListenerTalk.completed (hp : party = .settled protocol stream) : stream = .completed := by
  rcases htalk.party_cases with ⟨_, h⟩ | ⟨_, h⟩
  · cases h.symm.trans hp
  · cases h.symm.trans hp
    rfl

end

theorem ListenerTalk.accepted (htalk : ListenerTalk names held (.settled protocol stream) heard sent) :
    ∃ rejected p, heard = proposals (rejected ++ [p]) ∧ sent = rejections rejected ++ [.protocol p] ∧
      protocol = p.name ∧ p.name ∈ names := by
  cases htalk with
  | settled hu hn => exact ⟨_, _, rfl, rfl, rfl, hn⟩

theorem ListenerTalk.waits (htalk : ListenerTalk names held (.selecting listener) heard sent) :
    (∀ port, ¬ listener.Stuck port) ∨
    listener.io.writeBuffer = [] ∧ held = [] ∧ sent.length = heard.length ∧ ∀ p, .protocol p ∉ sent := by
  cases htalk with
  | recvHeader hb hh => exact .inr ⟨hb, hh, rfl, fun _ => not_mem_nil⟩
  | recvMessage hu hb hh =>
    exact .inr ⟨hb, hh, length_rejections _, fun _ => not_mem_rejections⟩
  | _ => exact .inl fun port hs => by rcases hs.1 with h | h <;> cases h

end Talk

theorem End.idle_of_settled {σ : Type} {Stuck : σ → Port → Prop} {self : End σ} {remoteDropped : Bool}
    (hp : self.party = .settled protocol .completed) (hnoE : self.readError = none)
    (hi : ¬∃ task, self.Busy Stuck remoteDropped task) :
    self.toWrite = [] ∧ self.held = [] ∧ self.arrived = [] := by
  refine ⟨?_, ?_, ?_⟩ <;> by_contra h
  · exact hi ⟨.write, protocol, _, hp, nofun, h⟩
  · exact hi ⟨.flush, protocol, _, hp, nofun, .inr h⟩
  · exact hi ⟨.read, protocol, _, hp, hnoE, fun hs => h hs.1⟩

section Listens

variable (names : List String) (dialerPayload listenerPayload : List UInt8)

variable [UnsignedVarint]

/-- What the two have heard, the messages that are on their way to them, and the bytes of the
applications behind these. -/
structure Listens (system : System) (heardL queueL heardD queueD : List Message) (extraL extraD : List UInt8) :
    Prop where
  talk : ListenerTalk names system.listener.held system.listener.party heardL (heardD ++ queueD)
  toListener : Carries Dialer.io io dialerPayload system.dialer system.listener queueL extraL
  toDialer : Carries io Dialer.io listenerPayload system.listener system.dialer queueD extraD
  settled : extraD ≠ [] → ∃ protocol, system.listener.party = .settled protocol .completed
  noError : system.dialer.readError = none ∧ system.listener.readError = none

/-- The dialer still reads messages. -/
def Reading (system : System) : Prop :=
  (∃ dialer, system.dialer.party = .selecting dialer) ∨
  ∃ protocol io header p, system.dialer.party = .settled protocol (.expecting io header p)

variable {names dialerPayload listenerPayload} {system : System} {heardL queueL heardD queueD : List Message}
  {extraL extraD : List UInt8}

namespace Listens

variable {fut : Listener}

variable {dialer : End Dialer} {passed taken : List UInt8}

theorem dialer_spoke (hlit : Listens names dialerPayload listenerPayload system heardL queueL heardD queueD [] extraD)
    {heardD' queueD' new : List Message}
    (hs : End.Speaks Dialer.io system.dialer dialer passed new) (hh : heardD' ++ queueD' = heardD ++ queueD)
    (htoD : Carries io Dialer.io listenerPayload system.listener dialer queueD' extraD)
    (hm : new = [] ∨ ∃ listener, system.listener.party = .selecting listener) :
    Listens names dialerPayload listenerPayload ⟨dialer, system.listener.arrive passed⟩ heardL (queueL ++ new)
      heardD' queueD' [] extraD :=
  ⟨hh ▸ hlit.talk, hlit.toListener.said hs (hm.imp_right .inl), htoD.arrive passed,
    hlit.settled, hs.readError.trans hlit.noError.1, hlit.noError.2⟩

theorem of_holds (hlit : Listens names dialerPayload listenerPayload system heardL queueL heardD queueD extraL [])
    (hr : Reading system ∨ heardD.length = (heardL ++ queueL).length) {party : Party Listener} {port : Port}
    (hh : ListenerHolds names (heardL ++ queueL) (heardD ++ queueD)
      (system.listener.held ++ system.listener.party.buffer io)
      (system.dialer.held ++ system.dialer.party.buffer Dialer.io) extraL party port) :
    ∃ heardL' queueL' new, heardL' ++ queueL' = heardL ++ queueL ∧
      Listens names dialerPayload listenerPayload
        ⟨system.dialer.arrive port.passed, (system.listener.after party port).1⟩
        heardL' queueL' heardD (queueD ++ new) extraL [] := by
  obtain ⟨heardL', queueL', new, htalk, hhe, hl, hb, -⟩ := hh
  rw [append_assoc] at htalk
  refine ⟨heardL', queueL', new, hhe, htalk, ⟨hl, hlit.toListener.payload_eq⟩,
    hlit.toDialer.said ⟨rfl, rfl, rfl, ?_⟩ ?_, absurd rfl, hlit.noError⟩
  · rw [← append_assoc]
    exact hb
  rcases hr with (hs | he) | ha
  · exact .inr (.inl hs)
  · exact .inr (.inr he)
  -- the dialer has heard an answer to everything, and nothing is answered twice
  have hlen := htalk.answers.length_le
  have ht := congrArg List.length hhe
  simp only [length_append, length_map] at ha hlen ht
  exact .inl (eq_nil_of_length_eq_zero (by omega))

section

variable (hlit : Listens names dialerPayload listenerPayload system heardL queueL heardD queueD extraL extraD)
include hlit

theorem listener_open : system.listener.dropped = false := by
  unfold End.dropped
  rcases hlit.talk.party_cases with ⟨_, h⟩ | ⟨_, h⟩ <;> rw [h]

theorem answers : heardD ++ queueD <+: (heardL ++ queueL).map (answer names) := by
  rw [map_append]
  exact hlit.talk.answers.trans (prefix_append _ _)

theorem extra_nil (hp : system.listener.party = .selecting fut) : extraD = [] := by
  by_contra he
  obtain ⟨_, hs⟩ := hlit.settled he
  cases hp.symm.trans hs

theorem dialer_moved {extraD' : List UInt8} {heardD' queueD' : List Message}
    (hs : passed ++ (dialer.held ++ dialer.party.buffer Dialer.io) =
      system.dialer.held ++ system.dialer.party.buffer Dialer.io ++ taken)
    (htoW : system.dialer.toWrite = taken ++ dialer.toWrite) (hh : heardD' ++ queueD' = heardD ++ queueD)
    (htoD : Carries io Dialer.io listenerPayload system.listener dialer queueD' extraD')
    (he : extraD' ≠ [] → extraD ≠ []) (hreE : dialer.readError = system.dialer.readError) :
    Listens names dialerPayload listenerPayload ⟨dialer, system.listener.arrive passed⟩ heardL queueL heardD' queueD'
      (extraL ++ taken) extraD' :=
  ⟨hh ▸ hlit.talk, hlit.toListener.written hs htoW, htoD.arrive passed,
    fun h => hlit.settled (he h), hreE.trans hlit.noError.1, hlit.noError.2⟩

variable {chunk : List UInt8}

theorem dialer_exchanged (he : End.Exchanges system.dialer dialer passed taken chunk)
    (hc : taken = [] ∧ chunk = [] ∨ ∃ protocol, system.dialer.party = .settled protocol .completed) :
    ∃ extraD', extraD = chunk ++ extraD' ∧
      Listens names dialerPayload listenerPayload ⟨dialer, system.listener.arrive passed⟩ heardL queueL heardD queueD
        (extraL ++ taken) extraD' := by
  obtain ⟨extraD', rfl, htoD⟩ := hlit.toDialer.read he.party he.arrived he.received (hc.imp_left And.right)
  exact ⟨extraD', rfl, hlit.dialer_moved (he.sent hc Dialer.io) he.toWrite rfl
    htoD (append_ne_nil_of_right_ne_nil chunk) he.readError⟩

theorem listener_exchanged {listener : End Listener}
    (he : End.Exchanges system.listener listener passed taken chunk)
    (hc : taken = [] ∧ chunk = [] ∨ ∃ protocol, system.listener.party = .settled protocol .completed) :
    ∃ extraL', extraL = chunk ++ extraL' ∧
      Listens names dialerPayload listenerPayload ⟨system.dialer.arrive passed, listener⟩ heardL queueL heardD queueD
        extraL' (extraD ++ taken) := by
  obtain ⟨extraL', rfl, htoL⟩ := hlit.toListener.read he.party he.arrived he.received (hc.imp_left And.right)
  refine ⟨extraL', rfl, ?_, htoL.arrive passed,
    hlit.toDialer.written (he.sent hc io) he.toWrite,
    he.settled hc hlit.settled, hlit.noError.1, he.readError.trans hlit.noError.2⟩
  show ListenerTalk names listener.held listener.party heardL (heardD ++ queueD)
  rw [he.party]
  exact hlit.talk.of_held fun _ => he.held_nil hc

theorem listenerHolds (hp : system.listener.party = .selecting fut) (ans : List Answer) :
    ListenerHolds names (heardL ++ queueL) (heardD ++ queueD) (system.listener.held ++ system.listener.party.buffer io)
      (system.dialer.held ++ system.dialer.party.buffer Dialer.io) extraL (.selecting fut)
      (system.listener.port false ans) := by
  rw [← hp]
  refine ⟨heardL, queueL, [], ?_, rfl, hlit.toListener.link, (append_nil _).symm, rfl⟩
  rw [append_nil]
  exact hlit.talk

theorem listener_acted (hp : Proposed names (heardL ++ queueL))
    (he : extraL ≠ [] → ∃ p, .protocol p ∈ heardL ++ queueL ∧ p.name ∈ names)
    (hr : Reading system ∨ heardD.length = (heardL ++ queueL).length) (ho : system.dialer.dropped = false)
    (op : Op) (ans : List Answer) :
    ∃ heardL' queueL' new extraL' extraD', heardL' ++ queueL' = heardL ++ queueL ∧ (extraL' ≠ [] → extraL ≠ []) ∧
      Listens names dialerPayload listenerPayload (system.step ⟨.listener, op, ans⟩) heardL' queueL' heardD
        (queueD ++ new) extraL' extraD' := by
  by_cases hpo : ∃ fut, system.listener.party = .selecting fut ∧ op = .poll
  · obtain ⟨fut, hpa, rfl⟩ := hpo
    obtain rfl := hlit.extra_nil hpa
    obtain ⟨heardL', queueL', new, hh, hl'⟩ :=
      hlit.of_holds hr (listener_poll_holds hp he (hlit.listenerHolds hpa ans))
    refine ⟨heardL', queueL', new, extraL, [], hh, id, ?_⟩
    unfold System.step
    rw [ho, End.act_poll poll hpa]
    exact hl'
  · obtain ⟨taken, chunk, hex, hc⟩ := End.act_exchanges poll system.dialer.dropped ans
      (fun protocol stream h => hlit.talk.completed h) hpo
    obtain ⟨extraL', rfl, hl'⟩ := hlit.listener_exchanged hex hc
    refine ⟨heardL, queueL, [], extraL', extraD ++ taken, rfl, append_ne_nil_of_right_ne_nil chunk, ?_⟩
    rw [append_nil]
    exact hl'

/-- A listener that has said everything, while nothing is on the way to it, has heard everything. -/
theorem listener_waits (hp : system.listener.party = .selecting listener)
    (hh : system.dialer.held = []) (hb : system.dialer.party.buffer Dialer.io = []) :
    (∃ task, system.listener.Busy Listener.Stuck system.dialer.dropped task) ∨
    queueL = [] ∧ system.listener.held = [] ∧ system.listener.party.buffer io = [] ∧
      (heardD ++ queueD).length = heardL.length := by
  have htalk := hlit.talk
  have htoL := hlit.toListener.link
  rw [hp] at htalk
  rcases htalk.waits with hs | ⟨hb', hh', hlen, -⟩
  · exact .inl ⟨.poll, listener, hp, hs _⟩
  by_cases ha : system.listener.arrived = []
  · rw [ha, hh, hb] at htoL
    refine .inr ⟨htoL.queue_nil, hh', ?_, hlen⟩
    rw [hp]
    exact hb'
  · exact .inl ⟨.poll, listener, hp, fun hs => ha hs.2.1⟩

theorem busy_of_waiting (hh : system.dialer.held = []) (hb : system.dialer.party.buffer Dialer.io = [])
    (ha : system.dialer.arrived = []) (hu : heardD.length < (heardL ++ queueL).length) :
    ∃ task, system.listener.Busy Listener.Stuck system.dialer.dropped task := by
  have htalk := hlit.talk
  have htoL := hlit.toListener.link
  have htoD := hlit.toDialer.link
  rw [ha, nil_append] at htoD
  rcases htalk.party_cases with ⟨listener, hl⟩ | ⟨protocol, hl⟩
  · rcases hlit.listener_waits hl hh hb with hbu | ⟨rfl, hh', hb', hlen⟩
    · exact hbu
    -- nothing is on its way in either direction, so everything is answered
    rw [hh', hb'] at htoD
    rw [htoD.queue_nil, append_nil] at hlen
    rw [append_nil] at hu
    omega
  · rw [hl] at htalk htoL htoD
    by_cases hh' : system.listener.held = []
    · obtain ⟨_, _, rfl, hs, -, -⟩ := htalk.accepted
      rw [hh'] at htoD
      rw [htoD.queue_nil, append_nil] at hs
      rw [hs, htoL.1, append_nil, proposals_append, length_append, length_append, length_rejections] at hu
      exact absurd hu (Nat.lt_irrefl _)
    · exact ⟨.flush, protocol, _, hl, nofun, .inr hh'⟩

theorem busy_of_settled {protocol protocol' : String} (hd : system.dialer.party = .settled protocol .completed)
    (hl : system.listener.party = .settled protocol' .completed)
    (hu : system.dialer.received ≠ listenerPayload ∨ system.listener.received ≠ dialerPayload) : system.Busy := by
  have htoL := hlit.toListener.link
  have htoD := hlit.toDialer.link
  rw [hd, hl] at htoL htoD
  obtain ⟨-, hrL⟩ := htoL
  obtain ⟨-, hrD⟩ := htoD
  by_contra hi
  rw [System.Busy, not_or] at hi
  obtain ⟨hdiI, hliI⟩ := hi
  obtain ⟨hwD, hhD, haD⟩ := End.idle_of_settled hd hlit.noError.1 hdiI
  obtain ⟨hwL, hhL, haL⟩ := End.idle_of_settled hl hlit.noError.2 hliI
  have halL := hlit.toListener.payload_eq
  have halD := hlit.toDialer.payload_eq
  rw [← hrL, haL, hhD, hwD] at halL
  rw [← hrD, haD, hhL, hwL] at halD
  simp only [Party.buffer, append_nil] at halL halD
  rcases hu with h | h
  · exact h halD.symm
  · exact h halL.symm

theorem busy_of_completed (hd : system.dialer.party = .settled protocol .completed)
    {p : Protocol} (hp : .protocol p ∈ heardD)
    (hu : ∀ protocol', system.listener.party = .settled protocol' .completed →
      system.dialer.received ≠ listenerPayload ∨ system.listener.received ≠ dialerPayload) : system.Busy := by
  have htalk := hlit.talk
  rcases htalk.party_cases with ⟨listener, hl⟩ | ⟨protocol', hl⟩
  · rw [hl] at htalk
    rcases htalk.waits with hs | ⟨-, -, -, hn⟩
    · exact .inr ⟨.poll, listener, hl, hs _⟩
    · exact absurd (mem_append_left _ hp) (hn p)
  · exact hlit.busy_of_settled hd hl (hu protocol' hl)

end
end Listens
end Listens
end RustLibp2p.Multistream
