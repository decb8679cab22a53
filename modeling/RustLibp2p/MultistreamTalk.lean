import RustLibp2p.MultistreamProgress

/-! What the two sides have said to each other: which messages a side has sent and which it has read when its
negotiation stands at a given point. -/

namespace RustLibp2p.Multistream
open PollIo LengthDelimited List Message

namespace Party

variable {σ : Type}

/-- What this side will come to read are the messages in `queue` and then `extra`. A stream that is given up
has read all of the messages. -/
def Link [UnsignedVarint] (io : σ → LengthDelimited) (rest extra : List UInt8) (queue : List Message) : Party σ → Prop
  | .selecting future => InFrame (io future) rest extra (queue.map encode)
  | .settled _ (.expecting io _ _) => InFrame io rest extra (queue.map encode)
  | _ => queue = [] ∧ rest = extra

variable {io : σ → LengthDelimited} {queue : List Message} {party : Party σ} {rest extra : List UInt8}

theorem Link.append [UnsignedVarint] (hl : party.Link io rest [] queue) (more : List Message)
    (hm : more = [] ∨ (∃ future, party = .selecting future) ∨
      ∃ prot io header p, party = .settled prot (.expecting io header p)) :
    party.Link io (rest ++ wire (more.map encode)) [] (queue ++ more) := by
  rcases hm with rfl | ⟨_, rfl⟩ | ⟨_, _, _, _, rfl⟩
  · simpa [wire] using hl
  all_goals
    have hf := InFrame.append hl (more.map encode)
    rw [← map_append] at hf
    exact hf

theorem Link.append_extra [UnsignedVarint] (hl : party.Link io rest extra queue) (more : List UInt8) :
    party.Link io (rest ++ more) (extra ++ more) queue := by
  match party with
  | .selecting future | .settled _ (.expecting io _ _) => exact InFrame.append_extra hl more
  | .settled _ .completed | .settled _ .invalid | .failed _ => exact ⟨hl.1, by rw [hl.2]⟩

theorem Link.queue_nil [UnsignedVarint] (hl : party.Link io [] extra queue) : queue = [] := by
  have hf : ∀ {reader : LengthDelimited}, InFrame reader [] extra (queue.map encode) → queue = [] := by
    intro reader hf
    cases queue with
    | nil => rfl
    | cons => exact absurd rfl hf.rest_ne_nil
  match party with
  | .selecting future | .settled _ (.expecting io _ _) => exact hf hl
  | .settled _ .completed | .settled _ .invalid | .failed _ => exact hl.1

end Party

section Said

variable (names : List String)

/-- The listener's answer to a message of the dialer. -/
def answer : Message → Message
  | .protocol p => if p.name ∈ names then .protocol p else .notAvailable
  | message => message

section

variable (protocols : List Protocol)

/-- The header and the proposals of these protocols. -/
def proposals : List Message := .header .v1 :: protocols.map .protocol

/-- The header and as many rejections. -/
def rejections : List Message := .header .v1 :: protocols.map fun _ => .notAvailable

def Unsupported : Prop := ∀ p ∈ protocols, p.name ∉ names

end

variable {names} {p : Protocol} {protocols : List Protocol}

theorem answer_of_mem (hn : p.name ∈ names) : answer names (.protocol p) = .protocol p := if_pos hn

theorem answer_of_not_mem (hn : p.name ∉ names) : answer names (.protocol p) = .notAvailable := if_neg hn

theorem map_answer_proposals (hu : Unsupported names protocols) :
    (proposals protocols).map (answer names) = rejections protocols := by
  unfold proposals rejections
  rw [map_cons, map_map]
  refine congrArg (List.cons _) (map_congr_left fun p hp => ?_)
  exact answer_of_not_mem (hu p hp)

theorem proposals_append (protocols : List Protocol) (p : Protocol) :
    proposals (protocols ++ [p]) = proposals protocols ++ [.protocol p] := by
  unfold proposals
  rw [map_append]
  rfl

theorem rejections_append (protocols : List Protocol) (p : Protocol) :
    rejections (protocols ++ [p]) = rejections protocols ++ [.notAvailable] := by
  unfold rejections
  rw [map_append]
  rfl

theorem proposals_append_eq {all : List Protocol} {more : List Message}
    (heq : proposals protocols ++ more = proposals all) : ∃ others, all = protocols ++ others ∧
      more = others.map .protocol := by
  obtain ⟨_, others, rfl, hf, ho⟩ := map_eq_append_iff.1 (List.cons.inj heq).2.symm
  have hinj : Function.Injective protocol := fun _ _ h => by cases h; rfl
  rw [map_inj_right hinj] at hf
  exact ⟨others, by rw [hf], ho.symm⟩

theorem Unsupported.append (hu : Unsupported names protocols)
    (hn : p.name ∉ names) : Unsupported names (protocols ++ [p]) := by
  intro q hq
  rcases mem_append.1 hq with hq | hq
  · exact hu q hq
  · rw [mem_singleton.1 hq]
    exact hn

theorem not_mem_rejections : .protocol p ∉ rejections protocols := by
  intro hmem
  rcases mem_cons.1 hmem with h | h
  · cases h
  · obtain ⟨_, -, h⟩ := mem_map.1 h
    cases h

theorem mem_proposals (hmem : .protocol p ∈ proposals protocols) : p ∈ protocols := by
  rcases mem_cons.1 hmem with h | h
  · cases h
  · obtain ⟨_, hp, h⟩ := mem_map.1 h
    cases h
    exact hp

theorem length_rejections (protocols : List Protocol) :
    (rejections protocols).length = (proposals protocols).length := by
  unfold rejections proposals
  rw [length_cons, length_cons, length_map, length_map]

end Said

/-! ### What is on its way -/

variable [UnsignedVarint]

/-- Of the messages `heard` a side has read `recv` and will read `queue`, and behind the bytes `before` it has sent the
messages `new`. -/
structure OnWire (heard : List Message) (before future extra : List UInt8) (recv queue new : List Message)
    (io : LengthDelimited) (port : Port) : Prop where
  heard_eq : recv ++ queue = heard
  frame : InFrame io (port.incoming ++ future) extra (queue.map encode)
  bytes : port.passed ++ port.held ++ io.writeBuffer = before ++ wire (new.map encode)
  opened : port.remoteDropped = false

namespace OnWire

variable {heard recv queue new : List Message} {before future extra : List UInt8} {io io' : LengthDelimited}
  {port port' : Port} (hwire : OnWire heard before future extra recv queue new io port)
include hwire

theorem send (msg : Message) : OnWire heard before future extra recv queue (new ++ [msg])
    { io with writeBuffer := io.writeBuffer ++ wire [msg.encode] } port where
  __ := hwire
  frame := hwire.frame.of_reader rfl rfl
  bytes := by
    rw [← append_assoc, hwire.bytes, map_append, wire_append, append_assoc]
    rfl

theorem sends (hs : Sends io port io' port') : OnWire heard before future extra recv queue new io' port' where
  __ := hwire
  frame := by
    rw [hs.incoming]
    exact hwire.frame.of_reader hs.readState hs.readBuffer
  bytes := hs.bytes.trans hwire.bytes
  opened := hs.remoteDropped.trans hwire.opened

/-- A poll of a side that has sent all its bytes hears nothing, or the next message. -/
theorem hears (hs : ∀ message ∈ heard, message.Sendable) (hq : queue = [] → extra = [])
    (hb : io.writeBuffer = []) (hh : port.held = []) :
    (∃ io' port', pollStream io port = (.pending, io', port') ∧
      OnWire heard before future extra recv queue new io' port' ∧ io'.writeBuffer = [] ∧ port'.held = []) ∨
    ∃ message queue' io' port', queue = message :: queue' ∧
      pollStream io port = (.ready (some (.ok message)), io', port') ∧
      OnWire heard before future extra (recv ++ [message]) queue' new io' port' ∧ io'.writeBuffer = [] ∧
      port'.held = [] ∧ io'.readBuffer = [] := by
  have hr : Receives io port future extra queue (pollStream io port) := by
    refine pollStream_receives hwire.frame (fun message hm => hs message ?_) hq fun hd => ?_
    · exact hwire.heard_eq ▸ mem_append_right recv hm
    · rw [hwire.opened] at hd
      cases hd
  have hhe := hwire.heard_eq
  generalize pollStream io port = output at hr ⊢
  cases hr with
  | ended hp hre hme hd =>
    rw [hwire.opened] at hd
    cases hd
  | pending hp hw hf =>
    refine .inl ⟨_, _, rfl, ⟨hhe, hf, ?_, ?_⟩, hw.trans hb, ?_⟩
    · rw [hw, hp, hwire.bytes]
    all_goals rw [hp]
    · exact hwire.opened
    · exact hh
  | message hp hw hme hf hra =>
    rw [hme, append_cons] at hhe
    refine .inr ⟨_, _, _, _, hme, rfl, ⟨hhe, hf, ?_, ?_⟩, hw.trans hb, ?_, hra⟩
    · rw [hw, hp, hwire.bytes]
    all_goals rw [hp]
    · exact hwire.opened
    · exact hh

theorem bytes_of_empty (hb : io.writeBuffer = []) :
    port.passed ++ port.held ++ [] = before ++ wire (new.map encode) := by
  rw [← hb]
  exact hwire.bytes

end OnWire

/-- The protocols proposed before the current one were rejected, and the dialer has read the rejections. Before
the first answer it may not have read the header. -/
structure Rounds (names all : List String) (rejected : List Protocol) (current : Protocol)
    (remaining : List String) (heard : List Message) : Prop where
  all_eq : all = rejected.map Protocol.name ++ current.name :: remaining
  unsupported : Unsupported names rejected
  heard_eq : heard = rejections rejected ∨ rejected = [] ∧ heard = []

/-- The messages that a dialer has sent and heard, for the protocols `all` and the listener's `names`. -/
inductive DialerTalk (names all : List String) (held : List UInt8) :
    Party Dialer → List Message → List Message → Prop
  | header {io : LengthDelimited} (hbuffer : io.writeBuffer = []) :
      DialerTalk names all held (.selecting ⟨.v1, all, io, .sendHeader⟩) [] []
  | propose {io : LengthDelimited} {rejected : List Protocol} {current : Protocol} {remaining : List String}
      {heard : List Message} (hrounds : Rounds names all rejected current remaining heard)
      (hbuffer : io.writeBuffer.length < maxFrameSize) :
      DialerTalk names all held (.selecting ⟨.v1, remaining, io, .sendProtocol current.name⟩) (proposals rejected) heard
  | flush {io : LengthDelimited} {rejected : List Protocol} {current : Protocol} {remaining : List String}
      {heard : List Message} (hrounds : Rounds names all rejected current remaining heard) :
      DialerTalk names all held (.selecting ⟨.v1, remaining, io, .flushProtocol current.name⟩)
        (proposals (rejected ++ [current])) heard
  | await {io : LengthDelimited} {rejected : List Protocol} {current : Protocol} {remaining : List String}
      {heard : List Message} (hrounds : Rounds names all rejected current remaining heard)
      (hbuffer : io.writeBuffer = []) (hheld : held = []) :
      DialerTalk names all held (.selecting ⟨.v1, remaining, io, .awaitProtocol current.name⟩)
        (proposals (rejected ++ [current])) heard
  | settled {rejected : List Protocol} {current : Protocol} {remaining : List String}
      (hrounds : Rounds names all rejected current remaining (rejections rejected))
      (hname : current.name ∈ names) :
      DialerTalk names all held (.settled current.name .completed) (proposals (rejected ++ [current]))
        (rejections rejected ++ [.protocol current])
  | empty (hall : all = []) : DialerTalk names all held (.failed .failed) [] []
  | failed {rejected : List Protocol} (hall : all = rejected.map Protocol.name)
      (hunsupported : Unsupported names rejected) :
      DialerTalk names all held (.failed .failed) (proposals rejected) (rejections rejected)

/-- The messages that a listener has heard and sent while its negotiation goes well. -/
inductive ListenerTalk (names : List String) (held : List UInt8) :
    Party Listener → List Message → List Message → Prop
  | recvHeader {io : LengthDelimited} {lastSentNa : Bool} (hbuffer : io.writeBuffer = []) (hheld : held = []) :
      ListenerTalk names held (.selecting ⟨supportedProtocols names, io, .recvHeader, lastSentNa⟩) [] []
  | sendHeader {io : LengthDelimited} {lastSentNa : Bool} (hbuffer : io.writeBuffer = []) :
      ListenerTalk names held (.selecting ⟨supportedProtocols names, io, .sendHeader, lastSentNa⟩) (proposals []) []
  | flush {io : LengthDelimited} {lastSentNa : Bool}
      {rejected : List Protocol} (hunsupported : Unsupported names rejected) :
      ListenerTalk names held (.selecting ⟨supportedProtocols names, io, .flush none, lastSentNa⟩) (proposals rejected)
        (rejections rejected)
  | recvMessage {io : LengthDelimited} {lastSentNa : Bool}
      {rejected : List Protocol} (hunsupported : Unsupported names rejected) (hbuffer : io.writeBuffer = [])
      (hheld : held = []) :
      ListenerTalk names held (.selecting ⟨supportedProtocols names, io, .recvMessage, lastSentNa⟩) (proposals rejected)
        (rejections rejected)
  | reject {io : LengthDelimited} {lastSentNa : Bool}
      {rejected : List Protocol} {p : Protocol} (hunsupported : Unsupported names (rejected ++ [p]))
      (hbuffer : io.writeBuffer = []) :
      ListenerTalk names held (.selecting ⟨supportedProtocols names, io, .sendMessage .notAvailable none, lastSentNa⟩)
        (proposals (rejected ++ [p])) (rejections rejected)
  | accept {io : LengthDelimited} {lastSentNa : Bool}
      {rejected : List Protocol} {p : Protocol} (hunsupported : Unsupported names rejected)
      (hname : p.name ∈ names) (hbuffer : io.writeBuffer = []) :
      ListenerTalk names held
        (.selecting ⟨supportedProtocols names, io, .sendMessage (.protocol p) (some p.name), lastSentNa⟩)
        (proposals (rejected ++ [p])) (rejections rejected)
  | confirm {io : LengthDelimited} {lastSentNa : Bool}
      {rejected : List Protocol} {p : Protocol} (hunsupported : Unsupported names rejected)
      (hname : p.name ∈ names) :
      ListenerTalk names held (.selecting ⟨supportedProtocols names, io, .flush (some p.name), lastSentNa⟩)
        (proposals (rejected ++ [p])) (rejections rejected ++ [.protocol p])
  | settled {rejected : List Protocol} {p : Protocol} (hunsupported : Unsupported names rejected)
      (hname : p.name ∈ names) :
      ListenerTalk names held (.settled p.name .completed) (proposals (rejected ++ [p]))
        (rejections rejected ++ [.protocol p])

/-! A poll of the dialer keeps the account of what was said. -/
open Dialer

variable {names all remaining : List String} {rejected : List Protocol} {heard : List Message}

omit [UnsignedVarint] in
theorem Rounds.not_mem {current p : Protocol}
    (hrou : Rounds names all rejected current remaining heard) : .protocol p ∉ heard := by
  rcases hrou.heard_eq with rfl | ⟨-, rfl⟩
  · exact not_mem_rejections
  · exact not_mem_nil

variable {current : Protocol}

omit [UnsignedVarint] in
theorem Rounds.valid (hrou : Rounds names all rejected current remaining heard)
    (hnam : ∀ name ∈ all, ValidName name) : ValidName current.name :=
  hnam _ (by rw [hrou.all_eq]; exact mem_append_right _ mem_cons_self)

section DialerHolds

variable (names all : List String) (heard sent : List Message) (before future extra : List UInt8)

/-- The account of a dialer to which the messages `heard` are or were on their way, and which had sent the
messages `sent` and had the bytes `before` on their way at the start of the poll. -/
def DialerHolds (party : Party Dialer) (port : Port) : Prop :=
  ∃ recv queue new, DialerTalk names all port.held party (sent ++ new) recv ∧ recv ++ queue = heard ∧
    party.Link io (port.incoming ++ future) extra queue ∧
    port.passed ++ port.held ++ party.buffer io = before ++ wire (new.map Message.encode) ∧
    port.remoteDropped = false

variable {names all heard sent before future extra}

omit [UnsignedVarint] in
theorem next_answer {rejected : List Protocol} {recv queue new : List Message}
    {message : Message} (hu : Unsupported names rejected)
    (hs : sent ++ new = proposals (rejected ++ [current]))
    (hbeg : heard <+: sent.map (answer names)) (hh : recv ++ message :: queue = heard)
    (hr : recv = rejections rejected) : message = answer names (.protocol current) ∧ queue = [] := by
  obtain ⟨rest, hre⟩ := hbeg
  have hall : heard ++ (rest ++ new.map (answer names)) =
      rejections rejected ++ [answer names (.protocol current)] := by
    rw [← append_assoc, hre, ← map_append, hs, proposals_append, map_append, map_answer_proposals hu]
    rfl
  rw [← hh, hr, append_assoc] at hall
  have ht := append_cancel_left hall
  simp only [cons_append, List.cons.injEq, append_eq_nil_iff] at ht
  exact ⟨ht.1, ht.2.1⟩

def DialerTurnHolds (names all : List String) (heard sent : List Message) (before future extra : List UInt8)
    (dialer : Dialer) (port : Port) : Prop :=
  (∃ dialer' port', turn (dialer, port) = .next (dialer', port') ∧
    DialerHolds names all heard sent before future extra (.selecting dialer') port') ∨
  ∃ party port', turn (dialer, port) = .stop (party, port') ∧
    DialerHolds names all heard sent before future extra party port'

variable {io : LengthDelimited} {port : Port} {recv queue new : List Message} {current : Protocol}

theorem OnWire.dialerHolds {dialer : Dialer} (hwire : OnWire heard before future extra recv queue new dialer.io port)
    (ht : DialerTalk names all port.held (.selecting dialer) (sent ++ new) recv) :
    DialerHolds names all heard sent before future extra (.selecting dialer) port :=
  ⟨recv, queue, new, ht, hwire.heard_eq, hwire.frame, hwire.bytes, hwire.opened⟩

section

variable (hnam : ∀ name ∈ all, ValidName name) (hbeg : heard <+: sent.map (answer names))
include hnam hbeg

theorem dialer_sendHeader_holds (hs : sent ++ new = [])
    (hwire : OnWire heard before future extra [] queue new io port) (hb : io.writeBuffer = []) :
    DialerTurnHolds names all heard sent before future extra ⟨.v1, all, io, .sendHeader⟩ port := by
  obtain ⟨rfl, rfl⟩ := append_eq_nil_iff.1 hs
  obtain rfl : heard = [] := prefix_nil.1 hbeg
  obtain rfl : queue = [] := hwire.heard_eq
  have hsh : io.writeBuffer.length < maxFrameSize := by rw [hb]; decide
  unfold DialerTurnHolds turn
  dsimp only
  rw [pollReady_of_lt port hsh]
  dsimp only
  rw [show HeaderLine.ofVersion .v1 = .v1 from rfl, startSend_of_sendable io Message.sendable_header]
  cases all with
  | nil =>
    refine .inr ⟨_, _, rfl, [], [], [], .empty rfl, rfl, ⟨rfl, ?_⟩, hwire.bytes_of_empty hb, hwire.opened⟩
    cases hwire.frame with
    | done hst hr hre => exact hre
  | cons name remaining =>
    have hn := hnam name mem_cons_self
    have hrou : Rounds names (name :: remaining) [] hn.toProtocol remaining [] :=
      ⟨rfl, fun p hp => absurd hp not_mem_nil, .inr ⟨rfl, rfl⟩⟩
    refine .inl ⟨_, _, rfl, (hwire.send (.header .v1)).dialerHolds (.propose hrou ?_)⟩
    show (io.writeBuffer ++ _).length < _
    rw [hb]
    exact length_wire_header

variable (hrou : Rounds names all rejected current remaining recv)
  (hwire : OnWire heard before future extra recv queue new io port)
include hrou hwire

omit hbeg in
theorem dialer_sendProtocol_holds (hs : sent ++ new = proposals rejected) (hb : io.writeBuffer.length < maxFrameSize) :
    DialerTurnHolds names all heard sent before future extra ⟨.v1, remaining, io, .sendProtocol current.name⟩
      port := by
  have hsen := Message.sendable_protocol (hrou.valid hnam)
  unfold DialerTurnHolds turn
  dsimp only
  rw [pollReady_of_lt port hb]
  rw [Protocol.tryFromStr_name]
  dsimp only
  rw [startSend_of_sendable io hsen]
  dsimp only
  rw [if_pos (.inr rfl)]
  refine .inl ⟨_, _, rfl, (hwire.send (.protocol current)).dialerHolds ?_⟩
  rw [← append_assoc, hs, ← proposals_append]
  exact .flush hrou

omit hnam hbeg in
theorem dialer_flush_holds (hs : sent ++ new = proposals (rejected ++ [current])) :
    DialerTurnHolds names all heard sent before future extra ⟨.v1, remaining, io, .flushProtocol current.name⟩
      port := by
  obtain ⟨res, _, _, heq, hw, hf⟩ := io.pollFlush_writes port
  have hw' := hwire.sends hw.sends
  unfold DialerTurnHolds turn
  dsimp only
  rw [heq]
  match res with
  | .pending =>
    refine .inr ⟨_, _, rfl, hw'.dialerHolds ?_⟩
    rw [hs]
    exact .flush hrou
  | .ready (.error error) => rcases hw.notFailed hwire.opened with h | h <;> cases h
  | .ready (.ok ()) =>
    obtain ⟨hb, hh, -⟩ := hf rfl
    refine .inl ⟨_, _, rfl, hw'.dialerHolds ?_⟩
    rw [hs]
    exact .await hrou hb hh

theorem dialer_await_holds (hsen : ∀ message ∈ heard, message.Sendable)
    (hext : extra ≠ [] → ∃ p, .protocol p ∈ heard) (hs : sent ++ new = proposals (rejected ++ [current]))
    (hb : io.writeBuffer = []) (hh : port.held = []) :
    DialerTurnHolds names all heard sent before future extra ⟨.v1, remaining, io, .awaitProtocol current.name⟩
      port := by
  have hq : queue = [] → extra = [] := by
    rintro rfl
    by_contra hby
    obtain ⟨_, hp⟩ := hext hby
    rw [← hwire.heard_eq, append_nil] at hp
    exact hrou.not_mem hp
  unfold DialerTurnHolds turn
  dsimp only
  rcases hwire.hears hsen hq hb hh with
    ⟨io', port', heq, hw', hb', hh'⟩ |
    ⟨message, queue', io', port', rfl, heq, hw', hb', hh', hr⟩
  · rw [heq]
    refine .inr ⟨_, _, rfl, hw'.dialerHolds ?_⟩
    rw [hs]
    exact .await hrou hb' hh'
  · rw [heq]
    have hby' := hw'.bytes_of_empty hb'
    rcases hrou.heard_eq with hre | ⟨hn, hre⟩
    · obtain ⟨hm, rfl⟩ := next_answer hrou.unsupported hs hbeg hwire.heard_eq hre
      have hrs : port'.incoming ++ future = extra := by
        cases hw'.frame with
        | done hst hr hrs => exact hrs
      by_cases hna : current.name ∈ names
      · rw [answer_of_mem hna] at hm
        subst hm
        dsimp only
        rw [if_pos rfl]
        have hc : (Party.completed io' current.name : Party Dialer) = .settled current.name .completed := by
          unfold Party.completed LengthDelimited.intoInner
          rw [if_pos ⟨hr, hb'⟩]
        rw [hc]
        refine .inr ⟨_, _, rfl, recv ++ [.protocol current], [], new, ?_, hw'.heard_eq, ⟨rfl, hrs⟩, hby', hw'.opened⟩
        rw [hs, hre]
        exact .settled (hre ▸ hrou) hna
      · rw [answer_of_not_mem hna] at hm
        subst hm
        have hrj := hrou.unsupported.append hna
        cases remaining with
        | nil =>
          refine .inr ⟨_, _, rfl, recv ++ [.notAvailable], [], new, ?_, hw'.heard_eq, ⟨rfl, hrs⟩, hby',
          hw'.opened⟩
          rw [hs, hre, ← rejections_append _ current]
          refine .failed ?_ hrj
          rw [hrou.all_eq, map_append]
          rfl
        | cons next remaining =>
          have hne : ValidName next := hnam next (by rw [hrou.all_eq]; simp)
          have hr' : Rounds names all (rejected ++ [current]) hne.toProtocol remaining (recv ++ [.notAvailable]) := by
            refine ⟨?_, hrj, .inl (by rw [hre, rejections_append])⟩
            rw [hrou.all_eq, map_append, append_assoc]
            rfl
          refine .inl ⟨_, _, rfl, hw'.dialerHolds ?_⟩
          rw [hs]
          exact .propose hr' (by rw [hb']; decide)
    · -- nothing was heard yet, so this is the header
      subst hn
      subst hre
      have hm : message = .header .v1 := by
        obtain ⟨rest, hrs⟩ := hbeg
        have hall : heard ++ (rest ++ new.map (answer names)) = [.header .v1, answer names (.protocol current)] := by
          rw [← append_assoc, hrs, ← map_append, hs]
          rfl
        rw [← hwire.heard_eq] at hall
        exact (List.cons.inj hall).1
      subst hm
      dsimp only
      rw [if_pos rfl]
      have hr' : Rounds names all [] current remaining ([] ++ [.header .v1]) :=
        { hrou with heard_eq := .inl rfl }
      refine .inl ⟨_, _, rfl, hw'.dialerHolds ?_⟩
      rw [hs]
      exact .await hr' hb' hh'

end

section

variable {dialer : Dialer} (hnam : ∀ name ∈ all, ValidName name) (hbeg : heard <+: sent.map (answer names))
  (hsen : ∀ message ∈ heard, message.Sendable) (hext : extra ≠ [] → ∃ p, .protocol p ∈ heard)
  (hhol : DialerHolds names all heard sent before future extra (.selecting dialer) port)
include hnam hbeg hsen hext hhol

theorem dialer_turn_holds : DialerTurnHolds names all heard sent before future extra dialer port := by
  obtain ⟨recv, queue, new, ht, hh, hl, hb, ho⟩ := hhol
  have hwire : OnWire heard before future extra recv queue new dialer.io port := ⟨hh, hl, hb, ho⟩
  generalize hs : sent ++ new = said at ht
  generalize hp : Party.selecting dialer = party at ht
  cases ht with
  | header hbu =>
    cases hp
    exact dialer_sendHeader_holds hnam hbeg hs hwire hbu
  | propose hrou hbu =>
    cases hp
    exact dialer_sendProtocol_holds hnam hrou hwire hs hbu
  | flush hrou =>
    cases hp
    exact dialer_flush_holds hrou hwire hs
  | await hrou hbu hhe =>
    cases hp
    exact dialer_await_holds hnam hbeg hrou hwire hsen hext hs hbu hhe
  | settled | empty | failed => cases hp

theorem dialer_poll_holds :
    DialerHolds names all heard sent before future extra (dialer.poll port).1 (dialer.poll port).2 :=
  poll_keeps (fun _ _ => dialer_turn_holds hnam hbeg hsen hext) hhol

end
end DialerHolds
end RustLibp2p.Multistream
