import RustLibp2p.MultistreamExchange

/-! The accounts of the two sides fit together: whatever the transport does, what one side has heard is what
the other has said, and what is on the way between them makes up the difference. -/

namespace RustLibp2p.Multistream
open PollIo List Listener

/-! ### What a dialer's account says -/

variable {err : NegotiationError} {names all : List String} {held dialerPayload listenerPayload : List UInt8}
  {sent heard : List Message} {system : System}

section Dialer

variable {party : Party Dialer}

theorem DialerTalk.of_held {he' : List UInt8} (htalk : DialerTalk names all held party sent heard)
    (hh : ∀ dialer, party = .selecting dialer → held = [] → he' = []) :
    DialerTalk names all he' party sent heard := by
  cases htalk with
  | header hb => exact .header hb
  | propose hr hb => exact .propose hr hb
  | flush hr => exact .flush hr
  | await hr hb hn => exact .await hr hb (hh _ rfl hn)
  | settled hr hna => exact .settled hr hna
  | empty hall => exact .empty hall
  | failed hall hu => exact .failed hall hu

variable {stream : Negotiated} {protocol : String}

section

variable (htalk : DialerTalk names all held party sent heard)
include htalk

theorem DialerTalk.shape :
    sent = [] ∨ ∃ prots, sent = proposals prots ∧ Unsupported names prots.dropLast ∧
      ∀ p ∈ prots, p.name ∈ all := by
  have hc : ∀ {rejected : List Protocol} {cur : Protocol} {remaining : List String}
      {heard : List Message}, Rounds names all rejected cur remaining heard →
      ∃ prots, proposals (rejected ++ [cur]) = proposals prots ∧ Unsupported names prots.dropLast ∧
        ∀ p ∈ prots, p.name ∈ all := by
    intro rejected cur remaining heard hr
    refine ⟨_, rfl, ?_, ?_⟩
    · rw [dropLast_concat]
      exact hr.unsupported
    intro p hp
    rw [hr.all_eq]
    rcases mem_append.1 hp with hp | hp
    · exact mem_append_left _ (mem_map_of_mem hp)
    · rw [mem_singleton.1 hp]
      exact mem_append_right _ mem_cons_self
  have hre : ∀ {rejected : List Protocol}, Unsupported names rejected → (∀ p ∈ rejected, p.name ∈ all) →
      ∃ prots, proposals rejected = proposals prots ∧ Unsupported names prots.dropLast ∧
        ∀ p ∈ prots, p.name ∈ all :=
    fun hu hall => ⟨_, rfl, fun p hp => hu p (dropLast_subset _ hp), hall⟩
  cases htalk with
  | header | empty => exact .inl rfl
  | propose hr =>
    refine .inr (hre hr.unsupported fun p hp => ?_)
    rw [hr.all_eq]
    exact mem_append_left _ (mem_map_of_mem hp)
  | flush hr | await hr | settled hr => exact .inr (hc hr)
  | failed hall hu => exact .inr (hre hu fun p hp => by rw [hall]; exact mem_map_of_mem hp)

theorem DialerTalk.proposed [UnsignedVarint] (hn : ∀ name ∈ all, ValidName name) : Proposed names sent := by
  rcases htalk.shape with rfl | ⟨prots, rfl, hu, hall⟩
  · exact ⟨fun _ h => absurd h not_mem_nil, [], nil_prefix, fun _ h => absurd h not_mem_nil⟩
  refine ⟨fun msg hm => ?_, prots, prefix_rfl, hu⟩
  rcases mem_cons.1 hm with rfl | hm
  · exact Message.sendable_header
  · obtain ⟨p, hp, rfl⟩ := mem_map.1 hm
    exact Message.sendable_protocol (hn _ (hall p hp))

theorem DialerTalk.answered (hd : ∀ dialer, party ≠ .selecting dialer) : heard.length = sent.length := by
  cases htalk with
  | settled => rw [proposals_append, length_append, length_append, length_rejections]
  | empty => rfl
  | failed => exact length_rejections _
  | _ => exact absurd rfl (hd _)

theorem DialerTalk.party_cases :
    (∃ dialer, party = .selecting dialer) ∨ (∃ protocol, party = .settled protocol .completed) ∨
      party = .failed .failed := by
  cases htalk with
  | settled => exact .inr (.inl ⟨_, rfl⟩)
  | empty | failed => exact .inr (.inr rfl)
  | _ => exact .inl ⟨_, rfl⟩

theorem DialerTalk.completed (hp : party = .settled protocol stream) : stream = .completed := by
  rcases htalk.party_cases with ⟨_, h⟩ | ⟨_, h⟩ | h
  · cases h.symm.trans hp
  · cases h.symm.trans hp
    rfl
  · cases h.symm.trans hp

end

theorem DialerTalk.accepted (htalk : DialerTalk names all held (.settled protocol stream) sent heard) :
    ∃ p, .protocol p ∈ sent ∧ .protocol p ∈ heard ∧ protocol = p.name ∧ p.name ∈ names := by
  cases htalk with
  | settled hr hn =>
    refine ⟨_, ?_, mem_append_right _ mem_cons_self, rfl, hn⟩
    rw [proposals_append]
    exact mem_append_right _ mem_cons_self

theorem DialerTalk.rejected (htalk : DialerTalk names all held (.failed err) sent heard) :
    err = .failed ∧ (∀ p, .protocol p ∈ sent → p.name ∉ names) ∧ ∀ p, .protocol p ∉ heard := by
  cases htalk with
  | empty => exact ⟨rfl, fun _ h => absurd h not_mem_nil, fun _ => not_mem_nil⟩
  | failed hall hu => exact ⟨rfl, fun p hp => hu p (mem_proposals hp), fun _ => not_mem_rejections⟩

end Dialer

section System

variable (names all dialerPayload listenerPayload)

variable [UnsignedVarint]

/-- The account of a dialer, together with that of the listener. -/
structure Accounts (system : System) (heardL queueL heardD queueD : List Message) (extraL extraD : List UInt8) :
    Prop where
  dialer : DialerTalk names all system.dialer.held system.dialer.party (heardL ++ queueL) heardD
  listens : Listens names dialerPayload listenerPayload system heardL queueL heardD queueD extraL extraD
  settled : extraL ≠ [] → ∃ protocol, system.dialer.party = .settled protocol .completed

structure Ended (system : System) : Prop where
  dialer : system.dialer.party = .failed .failed
  listener : system.listener.party = .failed .failed
  talk : ∃ held sent heard, DialerTalk names all held (.failed .failed) sent heard
  dialer_reads : system.dialer.received <+: listenerPayload
  listener_reads : system.listener.received <+: dialerPayload
  noError : system.dialer.readError = none ∧ system.listener.readError = none

/-- The accounts can be given, or both sides have failed. -/
def Agreeing (system : System) : Prop :=
  (∃ heardL queueL heardD queueD extraL extraD,
    Accounts names all dialerPayload listenerPayload system heardL queueL heardD queueD extraL extraD) ∨
  Ended names all dialerPayload listenerPayload system

variable {names all dialerPayload listenerPayload} {heardL queueL heardD queueD : List Message}
  {extraL extraD : List UInt8}

theorem agreeing_start :
    Agreeing names all dialerPayload listenerPayload (.start .v1 all names dialerPayload listenerPayload) := by
  refine .inl ⟨[], [], [], [], [], [], .header rfl, ⟨.recvHeader rfl rfl, ⟨?_, rfl⟩, ⟨?_, rfl⟩, absurd rfl,
    rfl, rfl⟩, absurd rfl⟩
  all_goals exact .done rfl rfl rfl

namespace Accounts

/-- The dialer has failed: it has heard an answer to all that it sent, and no byte is on its way. -/
structure Over (system : System) (heardL queueL heardD queueD : List Message) (extraL extraD : List UInt8) :
    Prop where
  queueL_eq : queueL = []
  queueD_eq : queueD = []
  extraL_eq : extraL = []
  extraD_eq : extraD = []
  dialer_eq : system.dialer.held = [] ∧ system.dialer.arrived = []
  listener_eq : system.listener.held = [] ∧ system.listener.party.buffer io = []
  answered : heardL.length = heardD.length

section

variable (hacc : Accounts names all dialerPayload listenerPayload system heardL queueL heardD queueD extraL extraD)
include hacc

theorem dialer_open (hd : system.dialer.party ≠ .failed .failed) : system.dialer.dropped = false := by
  unfold End.dropped
  rcases hacc.dialer.party_cases with ⟨_, h⟩ | ⟨_, h⟩ | h
  · rw [h]
  · rw [h]
  · exact absurd h hd

theorem extra_nil (hd : ∀ protocol, system.dialer.party ≠ .settled protocol .completed) : extraL = [] := by
  by_contra he
  obtain ⟨protocol, hs⟩ := hacc.settled he
  exact hd protocol hs

theorem dialer_polled (hn : ∀ name ∈ all, ValidName name) {fut : Dialer} (hp : system.dialer.party = .selecting fut)
    (ans : List Answer) : Agreeing names all dialerPayload listenerPayload
      ⟨(system.dialer.after (fut.poll (system.dialer.port false ans)).1
          (fut.poll (system.dialer.port false ans)).2).1,
        system.listener.arrive (fut.poll (system.dialer.port false ans)).2.passed⟩ := by
  have hl := hacc.listens
  obtain rfl := hacc.extra_nil fun _ h => by cases hp.symm.trans h
  have hpr := hacc.dialer.proposed hn
  have hs := hl.talk.sendable fun msg hm =>
    hpr.sendable msg (mem_append_left _ hm)
  have he : extraD ≠ [] → ∃ p, .protocol p ∈ heardD ++ queueD := by
    intro he
    have htalk := hl.talk
    obtain ⟨protocol, hse⟩ := hl.settled he
    rw [hse] at htalk
    obtain ⟨rejected, p, -, hsn, -, -⟩ := htalk.accepted
    exact ⟨p, by rw [hsn]; exact mem_append_right _ mem_cons_self⟩
  have hh : DialerHolds names all (heardD ++ queueD) (heardL ++ queueL)
      (system.dialer.held ++ system.dialer.party.buffer Dialer.io)
      (system.listener.held ++ system.listener.party.buffer io) extraD (.selecting fut)
      (system.dialer.port false ans) := by
    rw [← hp]
    refine ⟨heardD, queueD, [], ?_, rfl, hl.toDialer.link, (append_nil _).symm, rfl⟩
    rw [append_nil]
    exact hacc.dialer
  obtain ⟨heardD', queueD', new, hd, hhe, hli, hb, -⟩ :=
    dialer_poll_holds hn hl.answers hs he hh
  rw [append_assoc] at hd
  have hmo : new = [] ∨ ∃ listener, system.listener.party = .selecting listener := by
    have htalk := hl.talk
    rcases htalk.party_cases with hsl | ⟨protocol, hse⟩
    · exact .inr hsl
    rw [hse] at htalk
    obtain ⟨rejected, p, rfl, -, -, hna⟩ := htalk.accepted
    have hno := (hd.proposed hn).queue_nil hna rfl
    exact .inl (append_eq_nil_iff.1 hno).2
  refine .inl ⟨heardL, queueL ++ new, heardD', queueD', [], extraD, hd,
    hl.dialer_spoke ⟨rfl, rfl, rfl, ?_⟩ hhe ⟨hli, hl.toDialer.payload_eq⟩ hmo,
    (absurd rfl)⟩
  rw [← append_assoc]
  exact hb

theorem dialer_exchanged {dialer : End Dialer} {passed taken chunk : List UInt8}
    (he : End.Exchanges system.dialer dialer passed taken chunk)
    (hc : taken = [] ∧ chunk = [] ∨ ∃ protocol, system.dialer.party = .settled protocol .completed) :
    Agreeing names all dialerPayload listenerPayload ⟨dialer, system.listener.arrive passed⟩ := by
  obtain ⟨extraD', rfl, hl⟩ := hacc.listens.dialer_exchanged he hc
  refine .inl ⟨heardL, queueL, heardD, queueD, extraL ++ taken, extraD', ?_, hl, he.settled hc hacc.settled⟩
  show DialerTalk names all dialer.held dialer.party _ _
  rw [he.party]
  exact hacc.dialer.of_held fun _ => he.held_nil hc

theorem listener_acted (hn : ∀ name ∈ all, ValidName name) (ho : system.dialer.dropped = false) (op : Op)
    (ans : List Answer) :
    Agreeing names all dialerPayload listenerPayload (system.step ⟨.listener, op, ans⟩) := by
  have he : extraL ≠ [] → ∃ p, .protocol p ∈ heardL ++ queueL ∧ p.name ∈ names := by
    intro he
    have htalk := hacc.dialer
    obtain ⟨protocol, hs⟩ := hacc.settled he
    rw [hs] at htalk
    obtain ⟨p, hp, -, -, hna⟩ := htalk.accepted
    exact ⟨p, hp, hna⟩
  have hr : Reading system ∨ heardD.length = (heardL ++ queueL).length := by
    by_cases hse : ∃ dialer, system.dialer.party = .selecting dialer
    · exact .inl (.inl hse)
    · exact .inr (hacc.dialer.answered fun dialer h => hse ⟨dialer, h⟩)
  obtain ⟨heardL', queueL', new, extraL', extraD', hh, hm, hl⟩ :=
    hacc.listens.listener_acted (hacc.dialer.proposed hn) he hr ho op ans
  exact .inl ⟨heardL', queueL', heardD, queueD ++ new, extraL', extraD', hh ▸ hacc.dialer, hl,
    fun h => hacc.settled (hm h)⟩

/-! ### After the dialer has failed -/

variable {fut : Listener}

theorem over_of_failed (hp : system.listener.party = .selecting fut)
    (hf : system.dialer.party = .failed .failed) : Over system heardL queueL heardD queueD extraL extraD := by
  have hd := hacc.dialer
  have htoD := hacc.listens.toDialer.link
  have htoL := hacc.listens.toListener.link
  rw [hf] at hd htoD htoL
  obtain ⟨rfl, hr⟩ := htoD
  have ha := hd.answered nofun
  have hlen := hacc.listens.talk.answers.length_le
  simp only [append_nil, length_append, length_map] at ha hlen
  obtain rfl : queueL = [] := eq_nil_of_length_eq_zero (by omega)
  obtain rfl := hacc.extra_nil fun _ h => by cases hf.symm.trans h
  obtain rfl := hacc.listens.extra_nil hp
  rw [append_eq_nil_iff, append_eq_nil_iff] at hr
  rw [hp] at htoL
  have hh : system.listener.arrived ++ (system.dialer.held ++ []) = [] := by
    cases htoL with
    | done hs hre hr => exact hr
  rw [append_nil, append_eq_nil_iff] at hh
  exact ⟨rfl, rfl, rfl, rfl, ⟨hh.2, hr.1⟩, hr.2, by rw [length_nil] at ha; omega⟩

theorem listener_polled_alone (hf : system.dialer.party = .failed .failed)
    (hp : system.listener.party = .selecting fut) (ans : List Answer) :
    Agreeing names all dialerPayload listenerPayload
      ⟨system.dialer.arrive (fut.poll (system.listener.port true ans)).2.passed,
        (system.listener.after (fut.poll (system.listener.port true ans)).1
          (fut.poll (system.listener.port true ans)).2).1⟩ := by
  have hl := hacc.listens
  have htalk := hl.talk
  have htoL := hl.toListener.link
  have hdiT := hacc.dialer
  obtain ⟨rfl, rfl, rfl, rfl, ⟨hdiH, hdiA⟩, ⟨hh, hb⟩, ha⟩ :=
    hacc.over_of_failed hp hf
  rw [hf, hdiH] at htoL
  rw [hf, append_nil] at hdiT
  rw [append_nil] at htalk
  have hal : ListenerAlone names heardL heardD [] (.selecting fut) (system.listener.port true ans) := by
    rw [← hp]
    refine ⟨.inl htalk, ha, hdiT.rejected.2.1, hb, ?_, hh, rfl⟩
    rw [← append_nil (system.listener.port true ans).incoming]
    exact htoL
  have haf := listener_poll_alone hal
  generalize fut.poll (system.listener.port true ans) = output at haf ⊢
  obtain ⟨party', port'⟩ := output
  rcases haf.talk with ht' | he
  · refine .inl ⟨heardL, [], heardD, [], [], [], hacc.dialer,
      ⟨?_, ⟨?_, hl.toListener.payload_eq⟩, ⟨?_, hl.toDialer.payload_eq⟩, absurd rfl, hl.noError⟩, absurd rfl⟩
    · rw [append_nil]
      exact ht'
    · show party'.Link io (port'.incoming ++ (system.dialer.held ++ system.dialer.party.buffer Dialer.io)) [] []
      rw [hdiH, hf]
      show party'.Link io (port'.incoming ++ []) [] []
      rw [append_nil]
      exact haf.link
    · show system.dialer.party.Link Dialer.io
        (system.dialer.arrived ++ port'.passed ++ (port'.held ++ party'.buffer io)) [] []
      rw [hf, hdiA, haf.buffer, append_nil]
      exact ⟨rfl, haf.bytes⟩
  · exact .inr ⟨hf, he, ⟨_, _, _, hdiT⟩, hl.toDialer.received_begins, hl.toListener.received_begins, hl.noError⟩

end
end Accounts

theorem Ended.step (he : Ended names all dialerPayload listenerPayload system) (act : Action) :
    Ended names all dialerPayload listenerPayload (system.step act) := by
  have hd := he.dialer
  have hl := he.listener
  unfold System.step
  cases act.side with
  | dialer =>
    obtain ⟨taken, chunk, hex, hc⟩ := End.act_exchanges Dialer.poll system.listener.dropped act.answers
      (fun _ _ h => by cases hd.symm.trans h) (by rintro ⟨_, h, -⟩; cases hd.symm.trans h)
    obtain ⟨-, rfl⟩ := hc.resolve_right fun ⟨_, h⟩ => by cases hd.symm.trans h
    refine ⟨hex.party.trans hd, hl, he.talk, ?_, he.listener_reads, hex.readError.trans he.noError.1, he.noError.2⟩
    rw [hex.received, append_nil]
    exact he.dialer_reads
  | listener =>
    obtain ⟨taken, chunk, hex, hc⟩ := End.act_exchanges poll system.dialer.dropped act.answers
      (fun _ _ h => by cases hl.symm.trans h) (by rintro ⟨_, h, -⟩; cases hl.symm.trans h)
    obtain ⟨-, rfl⟩ := hc.resolve_right fun ⟨_, h⟩ => by cases hl.symm.trans h
    refine ⟨hd, hex.party.trans hl, he.talk, he.dialer_reads, ?_, he.noError.1, hex.readError.trans he.noError.2⟩
    rw [hex.received, append_nil]
    exact he.listener_reads

theorem agreeing_step (hn : ∀ name ∈ all, ValidName name)
    (ha : Agreeing names all dialerPayload listenerPayload system) (act : Action) :
    Agreeing names all dialerPayload listenerPayload (system.step act) := by
  rcases ha with ⟨_, _, _, _, _, _, hacc⟩ | he
  swap
  · exact .inr (he.step act)
  obtain ⟨side, op, ans⟩ := act
  cases side with
  | dialer =>
    unfold System.step
    by_cases hp : ∃ fut, system.dialer.party = .selecting fut ∧ op = .poll
    · obtain ⟨fut, hpa, rfl⟩ := hp
      rw [hacc.listens.listener_open, End.act_poll Dialer.poll hpa]
      exact hacc.dialer_polled hn hpa ans
    · obtain ⟨taken, chunk, hex, hc⟩ := End.act_exchanges Dialer.poll system.listener.dropped ans
        (fun protocol stream h => hacc.dialer.completed h) hp
      exact hacc.dialer_exchanged hex hc
  | listener =>
    by_cases hf : system.dialer.party = .failed .failed
    · by_cases hp : ∃ fut, system.listener.party = .selecting fut ∧ op = .poll
      · obtain ⟨fut, hpa, rfl⟩ := hp
        have hd : system.dialer.dropped := by
          unfold End.dropped
          rw [hf]
        unfold System.step
        rw [hd, End.act_poll poll hpa]
        exact hacc.listener_polled_alone hf hpa ans
      · obtain ⟨taken, chunk, hex, hc⟩ := End.act_exchanges poll system.dialer.dropped ans
          (fun protocol stream h => hacc.listens.talk.completed h) hp
        obtain ⟨_, rfl, hl⟩ := hacc.listens.listener_exchanged hex hc
        exact .inl ⟨_, _, _, _, _, _, hacc.dialer, hl, fun h => hacc.settled (append_ne_nil_of_right_ne_nil chunk h)⟩
    · exact hacc.listener_acted hn (hacc.dialer_open hf) op ans

end System

/-! The two sides of a negotiation settle on the first protocol of the dialer that the listener supports,
or both fail, and the applications then read what the other side writes. -/
open Fairness

/-- The first protocol of the dialer that the listener supports. -/
def chosen (dialerProtocols listenerProtocols : List String) : Option String :=
  dialerProtocols.find? fun name => decide (name ∈ listenerProtocols)

section Talk

variable {rejected : List Protocol}

theorem find_rejected (hu : Unsupported names rejected) :
    chosen (rejected.map Protocol.name) names = none := by
  unfold chosen
  rw [find?_eq_none]
  intro _ hn
  obtain ⟨p, hp, rfl⟩ := mem_map.1 hn
  simpa using hu p hp

theorem Rounds.chosen_eq {cur : Protocol} {remaining : List String}
    (hr : Rounds names all rejected cur remaining heard) (hn : cur.name ∈ names) :
    chosen all names = some cur.name := by
  have hre := find_rejected hr.unsupported
  unfold chosen at *
  rw [hr.all_eq, find?_append, hre, find?_cons_of_pos (by simpa using hn)]
  rfl

/-- A supported protocol that the dialer has proposed is the first of its protocols that is supported. -/
theorem DialerTalk.chosen_of_supported {party : Party Dialer} {p : Protocol}
    (ht : DialerTalk names all held party sent heard) (hp : .protocol p ∈ sent) (hn : p.name ∈ names) :
    chosen all names = some p.name := by
  have hl : ∀ {rejected : List Protocol} {cur : Protocol} {remaining : List String} {heard : List Message},
      Rounds names all rejected cur remaining heard → .protocol p ∈ proposals (rejected ++ [cur]) →
      chosen all names = some p.name := by
    intro rejected cur remaining heard hr hp
    rcases mem_append.1 (mem_proposals hp) with hp | hp
    · exact absurd hn (hr.unsupported p hp)
    · obtain rfl := mem_singleton.1 hp
      exact hr.chosen_eq hn
  cases ht with
  | header | empty => exact absurd hp not_mem_nil
  | propose hr => exact absurd hn (hr.unsupported p (mem_proposals hp))
  | flush hr | await hr | settled hr => exact hl hr hp
  | failed hall hu => exact absurd hn (hu p (mem_proposals hp))

theorem DialerTalk.chosen_of_failed
    (ht : DialerTalk names all held (.failed err) sent heard) : chosen all names = none := by
  cases ht with
  | empty hall =>
    rw [hall]
    rfl
  | failed hall hu =>
    rw [hall]
    exact find_rejected hu

/-- A dialer that is not done has something to do, or everything it has said is on its way and it waits for an
answer. -/
theorem DialerTalk.waits {dialer : Dialer} (ht : DialerTalk names all held (.selecting dialer) sent heard) :
    (∀ port, ¬ dialer.Stuck port) ∨
    dialer.io.writeBuffer = [] ∧ held = [] ∧ heard.length < sent.length := by
  cases ht with
  | header | propose | flush => exact .inl fun port hs => nomatch hs.1
  | await hr hb hh =>
    refine .inr ⟨hb, hh, ?_⟩
    rw [proposals_append, length_append]
    rcases hr.heard_eq with rfl | ⟨rfl, rfl⟩
    · rw [length_rejections]
      exact Nat.lt_succ_self _
    · exact Nat.succ_pos _

end Talk

def Party.Agrees {σ : Type} (outcome : Option String) : Party σ → Prop
  | .selecting _ => True
  | .settled protocol stream => outcome = some protocol ∧ stream = .completed
  | .failed error => outcome = none ∧ error = .failed

section Outcome

variable (outcome : Option String) (dialerPayload listenerPayload : List UInt8)

/-- Nobody has come to anything else, and nothing else was read than what the other side wrote. -/
structure Consistent (system : System) : Prop where
  dialer : system.dialer.party.Agrees outcome
  listener : system.listener.party.Agrees outcome
  dialer_reads : system.dialer.received <+: listenerPayload
  listener_reads : system.listener.received <+: dialerPayload
  noError : system.dialer.readError = none ∧ system.listener.readError = none

/-- Both have settled on the protocol and have read everything, or both have failed. -/
def Finished (system : System) : Prop :=
  match outcome with
  | some protocol =>
    system.dialer.party = .settled protocol .completed ∧ system.listener.party = .settled protocol .completed ∧
    system.dialer.received = listenerPayload ∧ system.listener.received = dialerPayload
  | none => system.dialer.party = .failed .failed ∧ system.listener.party = .failed .failed

end Outcome

section Agreeing

variable [UnsignedVarint] (hagreeing : Agreeing names all dialerPayload listenerPayload system)
include hagreeing

theorem consistent_of_agreeing : Consistent (chosen all names) dialerPayload listenerPayload system := by
  rcases hagreeing with ⟨_, _, _, _, _, _, ha⟩ | he
  · have hd := ha.dialer
    have ht := ha.listens.talk
    refine ⟨?_, ?_, ha.listens.toDialer.received_begins, ha.listens.toListener.received_begins, ha.listens.noError⟩
    · rcases hd.party_cases with ⟨_, h⟩ | ⟨_, h⟩ | h
      · rw [h]
        trivial
      · rw [h] at hd ⊢
        obtain ⟨p, hp, -, rfl, hn⟩ := hd.accepted
        exact ⟨hd.chosen_of_supported hp hn, rfl⟩
      · rw [h] at hd ⊢
        exact ⟨hd.chosen_of_failed, rfl⟩
    · rcases ht.party_cases with ⟨_, h⟩ | ⟨_, h⟩
      · rw [h]
        trivial
      rw [h] at ht ⊢
      obtain ⟨_, p, rfl, -, rfl, hn⟩ := ht.accepted
      refine ⟨hd.chosen_of_supported (mem_append_left _ ?_) hn, rfl⟩
      rw [proposals_append]
      exact mem_append_right _ mem_cons_self
  · obtain ⟨_, _, _, ht⟩ := he.talk
    refine { he with dialer := ?_, listener := ?_ }
    · rw [he.dialer]
      exact ⟨ht.chosen_of_failed, rfl⟩
    · rw [he.listener]
      exact ⟨ht.chosen_of_failed, rfl⟩

theorem busy_of_agreeing (hu : ¬ Finished (chosen all names) dialerPayload listenerPayload system) :
    system.Busy := by
  have hc := consistent_of_agreeing hagreeing
  rcases hagreeing with ⟨_, _, _, _, _, _, ha⟩ | he
  swap
  · obtain ⟨_, _, _, ht⟩ := he.talk
    refine absurd ?_ hu
    rw [ht.chosen_of_failed]
    exact ⟨he.dialer, he.listener⟩
  have hd := ha.dialer
  have hag := hc.dialer
  have hl := ha.listens
  have ht := hl.talk
  rcases hd.party_cases with ⟨dialer, hpa⟩ | ⟨prot, hpa⟩ | hpa
  · rw [hpa] at hd
    rcases hd.waits with hs | ⟨hb, hh, hun⟩
    · exact .inl ⟨.poll, dialer, hpa, hs _⟩
    by_cases har : system.dialer.arrived = []
    · refine .inr (hl.busy_of_waiting hh ?_ har hun)
      rw [hpa]
      exact hb
    · exact .inl ⟨.poll, dialer, hpa, fun hs => har hs.2.1⟩
  · rw [hpa] at hd hag
    obtain ⟨_, -, hp, -, -⟩ := hd.accepted
    refine hl.busy_of_completed hpa hp fun protocol' hli => ?_
    have hsa := hc.listener
    rw [hli] at hsa
    obtain rfl : prot = protocol' := Option.some.inj (hag.1.symm.trans hsa.1)
    by_contra hr
    rw [not_or, not_not, not_not] at hr
    apply hu
    rw [hag.1]
    exact ⟨hpa, hli, hr⟩
  · rw [hpa] at hag
    rcases ht.party_cases with ⟨listener, hli⟩ | ⟨prot, hli⟩
    · refine .inr ⟨.poll, listener, hli, fun hs => ?_⟩
      have hdr : system.dialer.dropped = false := hs.2.2
      unfold End.dropped at hdr
      rw [hpa] at hdr
      cases hdr
    · have hsa := hc.listener
      rw [hli] at hsa
      cases hag.1.symm.trans hsa.1

end Agreeing

/-- Whatever the transport does, neither side comes to anything else than the first protocol of the dialer that
the listener supports, or to a failure if there is none, and the applications read nothing but what the other
side writes. If the transport and the applications go on, both sides come to that, and everything is read. -/
theorem negotiation_agrees [UnsignedVarint] {dialerProtocols : List String}
    (hvalid : ∀ name ∈ dialerProtocols, ValidName name) (listenerProtocols : List String)
    (dialerPayload listenerPayload : List UInt8) :
    (∀ schedule time, Consistent (chosen dialerProtocols listenerProtocols) dialerPayload listenerPayload
      (stateAt System.step
        (.start .v1 dialerProtocols listenerProtocols dialerPayload listenerPayload) schedule time)) ∧
    ∀ schedule, Fair Helps schedule → ∃ time,
      Finished (chosen dialerProtocols listenerProtocols) dialerPayload listenerPayload (stateAt System.step
          (.start .v1 dialerProtocols listenerProtocols dialerPayload listenerPayload) schedule time) := by
  have hs : ∀ system act, Agreeing listenerProtocols dialerProtocols dialerPayload listenerPayload system →
      Agreeing listenerProtocols dialerProtocols dialerPayload listenerPayload (system.step act) :=
    fun system act hagreeing => agreeing_step hvalid hagreeing act
  constructor
  · intro schedule time
    exact consistent_of_agreeing (stateAt_invariant hs agreeing_start schedule time)
  · intro schedule hf
    exact System.eventually_of_busy hs (fun system => busy_of_agreeing) agreeing_start hf

/-- A dialer whose second protocol is the listener's only one. -/
theorem negotiation_agrees_second : ∃ time, Finished (some "/b") [1, 2] [3]
      (stateAt System.step (.start .v1 ["/a", "/b"] ["/b"] [1, 2] [3]) takeTurns time) := by
  have hv : ∀ name ∈ ["/a", "/b"], ValidName name := by decide +kernel
  have hc : chosen ["/a", "/b"] ["/b"] = some "/b" := by decide
  have hf := (negotiation_agrees hv ["/b"] [1, 2] [3]).2 takeTurns takeTurns_fair
  rw [hc] at hf
  exact hf

end RustLibp2p.Multistream
