import RustLibp2p.MultistreamTalk

/-! One direction between the two ends: the messages and then the bytes of the application that are on their
way from one end to the other, and how each operation moves them on. -/

namespace RustLibp2p.Multistream
open PollIo LengthDelimited List

/-! ### Operations on a stream that is completed -/

namespace End

variable {σ : Type}

/-- An operation of the application on a completed stream, or of the transport: the application has written
`taken` and read `chunk`. -/
structure Exchanges (before behind : End σ) (passed taken chunk : List UInt8) : Prop where
  party : behind.party = before.party
  readError : behind.readError = before.readError
  toWrite : before.toWrite = taken ++ behind.toWrite
  held : passed ++ behind.held = before.held ++ taken
  arrived : before.arrived = chunk ++ behind.arrived
  received : behind.received = before.received ++ chunk

theorem Exchanges.refl (self : End σ) : Exchanges self self [] [] [] :=
  ⟨rfl, rfl, rfl, (append_nil _).symm, rfl, (append_nil _).symm⟩

theorem exchanges_of_pass (self : End σ) (count : Nat) :
    Exchanges self { self with held := self.held.drop count } (self.held.take count) [] [] :=
  ⟨rfl, rfl, rfl, by rw [take_append_drop, append_nil], rfl, (append_nil _).symm⟩

variable {self : End σ} {protocol : String} {remoteDropped : Bool} {answers : List Answer}

section

variable (hpar : self.party = .settled protocol .completed)
include hpar

theorem exchanges_of_write :
    ∃ taken, Exchanges self (self.write protocol .completed (self.port remoteDropped answers)).1
      (self.write protocol .completed (self.port remoteDropped answers)).2 taken [] := by
  unfold write
  by_cases hb : self.toWrite = []
  · rw [if_pos hb]
    exact ⟨[], .refl self⟩
  rw [if_neg hb]
  unfold Negotiated.pollWrite
  have hn : ∀ ans', Exchanges self (self.after (.settled protocol .completed)
        { self.port remoteDropped answers with answers := ans' }).1 [] [] [] :=
    fun ans' => ⟨hpar.symm, rfl, rfl, (append_nil _).symm, rfl, (append_nil _).symm⟩
  rcases (self.port remoteDropped answers).pollWrite_cases hb with
    ⟨ans', heq, -, -⟩ | ⟨result, ans', heq, -, -, -, hr⟩ | ⟨taken, rest, ans', heq, -, hs, -⟩
  · rw [heq]
    exact ⟨[], hn ans'⟩
  · rw [heq]
    rcases hr with rfl | rfl
    all_goals exact ⟨[], hn ans'⟩
  rw [heq]
  refine ⟨taken, hpar.symm, rfl, ?_, rfl, rfl, (append_nil _).symm⟩
  show self.toWrite = taken ++ self.toWrite.drop taken.length
  rw [hs, drop_left]

theorem exchanges_of_read [UnsignedVarint] (len : Nat) :
    ∃ chunk, Exchanges self (self.read protocol .completed (self.port remoteDropped answers) len).1
      (self.read protocol .completed (self.port remoteDropped answers) len).2 [] chunk := by
  unfold read
  split
  · exact ⟨[], .refl self⟩
  have hr : Negotiated.pollRead .completed (self.port remoteDropped answers) len =
      (((self.port remoteDropped answers).pollRead len).1, .completed,
        ((self.port remoteDropped answers).pollRead len).2) := rfl
  rw [hr]
  rcases (self.port remoteDropped answers).pollRead_cases len with
    ⟨answers', heq, -, -⟩ | ⟨answers', heq, -, -⟩ | ⟨byte, bytes, rest, answers', heq, -, hs, -⟩
  · rw [heq]
    exact ⟨[], hpar.symm, rfl, rfl, (append_nil _).symm, rfl, (append_nil _).symm⟩
  · rw [heq]
    exact ⟨[], hpar.symm, rfl, rfl, (append_nil _).symm, rfl, rfl⟩
  · rw [heq]
    exact ⟨byte :: bytes, hpar.symm, rfl, rfl, (append_nil _).symm, hs, rfl⟩

theorem exchanges_of_flush :
    Exchanges self (self.flush protocol .completed (self.port remoteDropped answers)).1
      (self.flush protocol .completed (self.port remoteDropped answers)).2 [] [] := by
  unfold flush Negotiated.pollFlush
  dsimp only
  rcases (self.port remoteDropped answers).pollFlush_cases with ⟨ans', heq, -, -⟩ | ⟨ans', heq, -⟩
  · rw [heq]
    exact ⟨hpar.symm, rfl, rfl, (append_nil _).symm, rfl, (append_nil _).symm⟩
  · rw [heq]
    exact ⟨hpar.symm, rfl, rfl, rfl, rfl, (append_nil _).symm⟩

end

theorem act_exchanges [UnsignedVarint] (pollFuture : σ → Port → Party σ × Port) (remoteDropped : Bool)
    (answers : List Answer) {op : Op}
    (hpar : ∀ protocol stream, self.party = .settled protocol stream → stream = .completed)
    (hop : ¬ ∃ fut, self.party = .selecting fut ∧ op = .poll) :
    ∃ taken chunk, Exchanges self (self.act pollFuture remoteDropped answers op).1
      (self.act pollFuture remoteDropped answers op).2 taken chunk ∧
      (taken = [] ∧ chunk = [] ∨ ∃ protocol, self.party = .settled protocol .completed) := by
  rcases self.act_cases pollFuture remoteDropped answers op with
    heq | ⟨fut, hp, hf, -⟩ | ⟨count, rfl, heq⟩ | ⟨protocol, stream, hs, hcas⟩
  · rw [heq]
    exact ⟨[], [], .refl self, .inl ⟨rfl, rfl⟩⟩
  · exact absurd ⟨fut, hf, hp⟩ hop
  · rw [heq]
    exact ⟨[], [], exchanges_of_pass self count, .inl ⟨rfl, rfl⟩⟩
  obtain rfl := hpar protocol stream hs
  rcases hcas with ⟨-, heq⟩ | ⟨len, -, heq⟩ | ⟨-, heq⟩
  · rw [heq]
    obtain ⟨taken, hexc⟩ := exchanges_of_write hs
    exact ⟨taken, [], hexc, .inr ⟨_, hs⟩⟩
  · rw [heq]
    obtain ⟨chunk, hexc⟩ := exchanges_of_read hs len
    exact ⟨[], chunk, hexc, .inr ⟨_, hs⟩⟩
  · rw [heq]
    exact ⟨[], [], exchanges_of_flush hs, .inl ⟨rfl, rfl⟩⟩

section

variable {before behind : End σ} {passed taken chunk : List UInt8}
  (hexc : Exchanges before behind passed taken chunk)
  (hcas : taken = [] ∧ chunk = [] ∨ ∃ protocol, before.party = .settled protocol .completed)
include hexc hcas

theorem Exchanges.sent (io : σ → LengthDelimited) :
    passed ++ (behind.held ++ behind.party.buffer io) = before.held ++ before.party.buffer io ++ taken := by
  rw [← append_assoc, hexc.held, hexc.party]
  rcases hcas with ⟨rfl, -⟩ | ⟨_, hs⟩
  · rw [append_nil, append_nil]
  have hn : before.party.buffer io = [] := by
    rw [hs]
    rfl
  rw [hn, append_nil, append_nil]

theorem Exchanges.held_nil {fut : σ} (hs : before.party = .selecting fut) (hh : before.held = []) :
    behind.held = [] := by
  rcases hcas with ⟨rfl, -⟩ | ⟨_, hse⟩
  · have hn := hexc.held
    rw [hh] at hn
    exact (append_eq_nil_iff.1 hn).2
  · cases hs.symm.trans hse

theorem Exchanges.settled {extra : List UInt8}
    (he : extra ≠ [] → ∃ protocol, before.party = .settled protocol .completed) (hne : extra ++ taken ≠ []) :
    ∃ protocol, behind.party = .settled protocol .completed := by
  rw [hexc.party]
  rcases hcas with ⟨rfl, -⟩ | hs
  · rw [append_nil] at hne
    exact he hne
  · exact hs

end

/-- A poll of the future, in which the messages `new` were sent. -/
structure Speaks [UnsignedVarint] (io : σ → LengthDelimited) (before behind : End σ) (passed : List UInt8)
    (new : List Message) : Prop where
  readError : behind.readError = before.readError
  toWrite : behind.toWrite = before.toWrite
  received : behind.received = before.received
  sent : passed ++ (behind.held ++ behind.party.buffer io) =
    before.held ++ before.party.buffer io ++ wire (new.map Message.encode)

end End

variable [UnsignedVarint]

section Carries

variable {σ τ : Type} (writerIo : σ → LengthDelimited) (readerIo : τ → LengthDelimited) (payload : List UInt8)

/-- The reader has still to read the messages in `queue` and then the bytes `extra`, with which the payload of
the writer's application goes on. -/
structure Carries (writer : End σ) (reader : End τ) (queue : List Message) (extra : List UInt8) : Prop where
  link : reader.party.Link readerIo (reader.arrived ++ (writer.held ++ writer.party.buffer writerIo)) extra queue
  payload_eq : payload = reader.received ++ extra ++ writer.toWrite

variable {writerIo readerIo payload} {writer writer' : End σ} {reader reader' : End τ} {queue : List Message}
  {extra passed : List UInt8}

section

variable (hcar : Carries writerIo readerIo payload writer reader queue extra)
include hcar

theorem Carries.received_begins : reader.received <+: payload := by
  rw [hcar.payload_eq, append_assoc]
  exact prefix_append _ _

theorem Carries.arrive (bs : List UInt8) :
    Carries writerIo readerIo payload (writer.arrive bs) reader queue extra :=
  { hcar with }

theorem Carries.written {taken : List UInt8} (hs : passed ++ (writer'.held ++ writer'.party.buffer writerIo) =
      writer.held ++ writer.party.buffer writerIo ++ taken)
    (htoW : writer.toWrite = taken ++ writer'.toWrite) :
    Carries writerIo readerIo payload writer' (reader.arrive passed) queue (extra ++ taken) := by
  have hr : reader.arrived ++ passed ++ (writer'.held ++ writer'.party.buffer writerIo) =
      reader.arrived ++ (writer.held ++ writer.party.buffer writerIo) ++ taken := by
    rw [append_assoc, hs]
    exact (append_assoc _ _ _).symm
  refine ⟨?_, ?_⟩
  · show reader.party.Link readerIo (reader.arrived ++ passed ++ _) _ queue
    rw [hr]
    exact hcar.link.append_extra taken
  · rw [hcar.payload_eq, htoW]
    simp [End.arrive]

end

theorem Carries.said {more : List Message} (hcar : Carries writerIo readerIo payload writer reader queue [])
    (hs : End.Speaks writerIo writer writer' passed more)
    (hm : more = [] ∨ (∃ fut, reader.party = .selecting fut) ∨
      ∃ protocol io header p, reader.party = .settled protocol (.expecting io header p)) :
    Carries writerIo readerIo payload writer' (reader.arrive passed) (queue ++ more) [] := by
  have hr : reader.arrived ++ passed ++ (writer'.held ++ writer'.party.buffer writerIo) =
      reader.arrived ++ (writer.held ++ writer.party.buffer writerIo) ++ wire (more.map Message.encode) := by
    rw [append_assoc, hs.sent]
    exact (append_assoc _ _ _).symm
  refine ⟨?_, ?_⟩
  · show reader.party.Link readerIo (reader.arrived ++ passed ++ _) _ _
    rw [hr]
    exact hcar.link.append more hm
  · rw [hs.toWrite]
    exact hcar.payload_eq

theorem Carries.read {chunk : List UInt8} (hcar : Carries writerIo readerIo payload writer reader queue extra)
    (hpar : reader'.party = reader.party) (ha : reader.arrived = chunk ++ reader'.arrived)
    (hr : reader'.received = reader.received ++ chunk)
    (hc : chunk = [] ∨ ∃ protocol, reader.party = .settled protocol .completed) :
    ∃ extra', extra = chunk ++ extra' ∧ Carries writerIo readerIo payload writer reader' queue extra' := by
  obtain ⟨hl, hp⟩ := hcar
  rcases hc with rfl | ⟨_, hs⟩
  · refine ⟨extra, rfl, ?_, ?_⟩
    · rw [hpar, ← nil_append reader'.arrived, ← ha]
      exact hl
    · rw [hr, append_nil]
      exact hp
  · rw [hs] at hl
    obtain ⟨hq, hre⟩ := hl
    rw [ha, append_assoc] at hre
    refine ⟨_, hre.symm, ?_, ?_⟩
    · rw [hpar, hs]
      exact ⟨hq, rfl⟩
    · rw [hr, hp, ← hre]
      simp

end Carries

/-! A stream whose confirmation is outstanding: what reading from it gives when the remote has sent the header
and one more message, and how writes to it follow the proposal. -/
open Negotiated Message

namespace Negotiated

/-- What was heard when the stream still expects the header, and when it does not. -/
inductive Heard : Option HeaderLine → List Message → Prop
  | nothing : Heard (some .v1) []
  | header : Heard none [.header .v1]

omit [UnsignedVarint] in
theorem Heard.length_lt {header : Option HeaderLine} {heard : List Message} (hhea : Heard header heard) :
    heard.length < 2 := by
  cases hhea <;> decide

/-- The messages that this stream has heard or will hear are the header and a reply. While there may be more of
them nothing follows, and a remote that has dropped the stream has sent both. -/
structure Expects (protocol : Protocol) (reply : Message) (total : List Message) (future extra : List UInt8)
    (dropped : Bool) : Prop where
  total_begins : total <+: [.header .v1, reply]
  sendable : ∀ message ∈ total, message.Sendable
  quiet : total.length < 2 → extra = []
  dropped_total : dropped = true → future = [] ∧ total.length = 2
  reply_eq : reply = .protocol protocol ∧ dropped = false ∨ reply = .notAvailable

/-- What a poll comes to. The bytes that were on their way out are `bytes`. -/
inductive Polled (protocol : Protocol) (reply : Message) (total : List Message) (future extra bytes : List UInt8)
    (dropped : Bool) : Poll (Except NegotiationError Unit) × Negotiated × Port → Prop
  | pending {io : LengthDelimited} {header : Option HeaderLine} {heard queue : List Message} {port : Port}
      (hdropped : port.remoteDropped = dropped) (hbytes : port.passed ++ port.held ++ io.writeBuffer = bytes)
      (hheard : Heard header heard) (htotal : heard ++ queue = total)
      (hframe : InFrame io (port.incoming ++ future) extra (queue.map encode)) :
      Polled protocol reply total future extra bytes dropped (.pending, .expecting io header protocol, port)
  | confirmed {port : Port} (hdropped : port.remoteDropped = dropped) (hbytes : port.passed ++ port.held = bytes)
      (hreply : reply = .protocol protocol) (htotal : total = [.header .v1, reply])
      (hrest : port.incoming ++ future = extra) :
      Polled protocol reply total future extra bytes dropped (.ready (.ok ()), .completed, port)
  | failed {error : NegotiationError} {stream : Negotiated} {port : Port} (hreply : reply = .notAvailable) :
      Polled protocol reply total future extra bytes dropped (.ready (.error error), stream, port)

variable {protocol : Protocol} {reply : Message} {total heard queue : List Message} {future extra : List UInt8}
  {io : LengthDelimited} {header : Option HeaderLine} {port : Port}

section

variable (hexp : Expects protocol reply total future extra port.remoteDropped)
  (hbuf : reply = .protocol protocol → io.writeBuffer = []) (hhea : Heard header heard)
    (htot : heard ++ queue = total) (hfra : InFrame io (port.incoming ++ future) extra (queue.map encode))
include hexp hbuf hhea htot hfra

theorem pollTurn_polled :
    (∃ io' port' queue', pollTurn (.expecting io header protocol, port) = .next (.expecting io' none protocol, port') ∧
      port' = { port with incoming := port'.incoming, answers := port'.answers } ∧
      io'.writeBuffer = io.writeBuffer ∧ [.header .v1] ++ queue' = total ∧
      InFrame io' (port'.incoming ++ future) extra (queue'.map encode)) ∨
    ∃ output, pollTurn (.expecting io header protocol, port) = .stop output ∧
      Polled protocol reply total future extra (port.passed ++ port.held ++ io.writeBuffer) port.remoteDropped
        output := by
  have hlen := hhea.length_lt
  have hq : queue = [] → extra = [] := by
    rintro rfl
    rw [append_nil] at htot
    exact hexp.quiet (htot ▸ hlen)
  have hs : ∀ message ∈ queue, message.Sendable :=
    fun message hm => hexp.sendable message (htot ▸ mem_append_right heard hm)
  have hr := pollStream_receives hfra hs hq fun hd => (hexp.dropped_total hd).1
  unfold pollTurn
  dsimp only
  generalize pollStream io port = output at hr ⊢
  cases hr with
  | pending hp hw hf' =>
    refine .inr ⟨_, rfl, .pending (by rw [hp]) ?_ hhea htot hf'⟩
    rw [hw, hp]
  | ended hp hre hme hd =>
    have hb := (hexp.dropped_total hd).2
    rw [← htot, hme, append_nil] at hb
    omega
  | message hp hw hme hf' hra =>
    rename_i message queue' io' port'
    subst hme
    obtain ⟨_, hbe⟩ := hexp.total_begins
    rw [← htot] at hbe
    cases hhea with
    | nothing =>
      obtain rfl : message = .header .v1 := (List.cons.inj hbe).1
      refine .inl ⟨io', port', queue', ?_, hp, hw, htot, hf'⟩
      dsimp only
      rw [if_pos rfl]
    | header =>
      have hl : message = reply ∧ queue' = [] := by
        have ht := (List.cons.inj hbe).2
        simp only [append_eq, nil_append, cons_append, List.cons.injEq, append_eq_nil_iff] at ht
        exact ⟨ht.1, ht.2.1⟩
      obtain ⟨rfl, rfl⟩ := hl
      refine .inr ?_
      rcases hexp.reply_eq with ⟨rfl, -⟩ | rfl
      · have he : io'.writeBuffer = [] := hw.trans (hbuf rfl)
        have hdo : io'.intoInner = .ok () := by
          unfold LengthDelimited.intoInner
          rw [if_pos ⟨hra, he⟩]
        dsimp only
        rw [if_pos rfl, hdo]
        refine ⟨_, rfl, .confirmed (by rw [hp]) ?_ rfl htot.symm ?_⟩
        · rw [hbuf rfl, append_nil, hp]
        · cases hf' with
          | done hst hra hre => exact hre
      · exact ⟨_, rfl, .failed rfl⟩

theorem confirm_polled :
    Polled protocol reply total future extra (port.passed ++ port.held ++ io.writeBuffer) port.remoteDropped
      (confirm (.expecting io header protocol) port) := by
  unfold confirm
  refine loop_spec (fun (st : Negotiated × Port) => ∃ io' header' heard' queue' port',
      st = (.expecting io' header' protocol, port') ∧
      port' = { port with incoming := port'.incoming, answers := port'.answers } ∧
      io'.writeBuffer = io.writeBuffer ∧ Heard header' heard' ∧ heard' ++ queue' = total ∧
      InFrame io' (port'.incoming ++ future) extra (queue'.map encode))
    (Polled protocol reply total future extra (port.passed ++ port.held ++ io.writeBuffer) port.remoteDropped)
    (fun st => st.2.answers.length) ?_ ⟨io, header, heard, queue, port, rfl, rfl, rfl, hhea, htot, hfra⟩
    (Nat.lt_succ_self _) _
  rintro st ⟨io', header', heard', queue', port', rfl, hp, hw, hh', ht', hf'⟩
  have he' : Expects protocol reply total future extra port'.remoteDropped := by rw [hp]; exact hexp
  rcases pollTurn_polled he' (fun h => hw.trans (hbuf h)) hh' ht' hf' with
    ⟨io'', port'', queue'', heq, hp', hw', ht'', hf''⟩ | ⟨_, heq, hpo⟩
  · rw [heq]
    refine ⟨⟨io'', none, _, queue'', port'', rfl, ?_, hw'.trans hw, .header, ht'', hf''⟩, ?_⟩
    · rw [hp', hp]
    rcases pollTurn_flows io' header' protocol port' with ⟨_, _, heq', ht⟩ | ⟨_, _, _, heq', -⟩
    · cases heq.symm.trans heq'
      exact ht.answers
    · cases heq.symm.trans heq'
  · rw [heq]
    rw [hw, hp] at hpo
    exact hpo

end

theorem poll_polled (hexp : Expects protocol reply total future extra port.remoteDropped)
    (hhea : Heard header heard) (htot : heard ++ queue = total)
    (hfra : InFrame io (port.incoming ++ future) extra (queue.map encode)) :
    Polled protocol reply total future extra (port.passed ++ port.held ++ io.writeBuffer) port.remoteDropped
      (poll (.expecting io header protocol) port) := by
  obtain ⟨res, io', port', hf, hw, hfl⟩ := io.pollFlush_writes port
  have hf' : InFrame io' (port'.incoming ++ future) extra (queue.map encode) := by
    rw [hw.sends.incoming]
    exact hfra.of_reader hw.sends.readState hw.sends.readBuffer
  have hd := hw.sends.remoteDropped
  have hc : (reply = .protocol protocol → io'.writeBuffer = []) →
      Polled protocol reply total future extra (port.passed ++ port.held ++ io.writeBuffer) port.remoteDropped
        (confirm (.expecting io' header protocol) port') := by
    intro hbuf
    have hp := confirm_polled (hd.symm ▸ hexp) hbuf hhea htot hf'
    rw [hw.sends.bytes, hd] at hp
    exact hp
  -- a flush fails only when the remote has dropped the stream, and then the protocol was rejected
  have hr : ∀ err, res = .ready (.error err) → reply = .notAvailable := by
    rintro err rfl
    rcases hexp.reply_eq with ⟨-, ho⟩ | hre
    · rcases hw.notFailed ho with h | h <;> cases h
    · exact hre
  unfold poll pollFlush
  dsimp only
  rw [hf]
  match res with
  | .pending => exact .pending hd hw.sends.bytes hhea htot hf'
  | .ready (.ok ()) => exact hc fun _ => (hfl rfl).1
  | .ready (.error err) =>
    have hre := hr err rfl
    cases err with
    | writeZero => exact hc fun h => by cases h.symm.trans hre
    | _ => exact .failed hre

theorem pollRead_rejected (hexp : Expects protocol .notAvailable total future extra port.remoteDropped)
    (hhea : Heard header heard) (htot : heard ++ queue = total)
    (hfra : InFrame io (port.incoming ++ future) extra (queue.map encode)) (len : Nat) :
    (pollRead (.expecting io header protocol) port len).1 = .pending ∨
      ∃ err, (pollRead (.expecting io header protocol) port len).1 = .ready (.error err) := by
  have hp := poll_polled hexp hhea htot hfra
  generalize hpo : poll (.expecting io header protocol) port = output at hp
  cases hp with
  | pending =>
    rw [pollRead_expecting hpo fun h => nomatch h]
    exact .inl rfl
  | confirmed hd hb hr => cases hr
  | failed =>
    rw [pollRead_expecting hpo fun h => nomatch h]
    exact .inr ⟨_, rfl⟩

end Negotiated

namespace End

variable {σ : Type} {self : End σ} {name : String} {p : Protocol} {io : LengthDelimited}
  {header : Option HeaderLine} {remoteDropped : Bool} {answers : List Answer}

/-- Writing, flushing or passing bytes on: the reader stays where it is, and what the application writes
goes behind the proposal. -/
structure Pushes (io : LengthDelimited) (before behind : End σ) (io' : LengthDelimited) (passed taken : List UInt8) :
    Prop where
  readState : io'.readState = io.readState
  readBuffer : io'.readBuffer = io.readBuffer
  arrived : behind.arrived = before.arrived
  received : behind.received = before.received
  readError : behind.readError = before.readError
  toWrite : before.toWrite = taken ++ behind.toWrite
  sent : passed ++ (behind.held ++ io'.writeBuffer) = before.held ++ io.writeBuffer ++ taken

omit [UnsignedVarint] in
theorem pushes_of_sends {io' : LengthDelimited} {port' : Port} {party : Party σ}
    (hs : Sends io (self.port remoteDropped answers) io' port') :
    Pushes io self (self.after party port').1 io' (self.after party port').2 [] := by
  refine ⟨hs.readState, hs.readBuffer, hs.incoming, rfl, rfl, rfl, ?_⟩
  have hb := hs.bytes
  rw [append_nil, ← append_assoc]
  exact hb

omit [UnsignedVarint] in
theorem pushes_of_write (hp : self.party = .settled name (.expecting io header p)) :
    ∃ io' taken, (self.write name (.expecting io header p) (self.port remoteDropped answers)).1.party =
        .settled name (.expecting io' header p) ∧
      Pushes io self (self.write name (.expecting io header p) (self.port remoteDropped answers)).1 io'
        (self.write name (.expecting io header p) (self.port remoteDropped answers)).2 taken := by
  unfold write
  by_cases hb : self.toWrite = []
  · rw [if_pos hb]
    exact ⟨io, [], hp, rfl, rfl, rfl, rfl, rfl, rfl, (append_nil _).symm⟩
  rw [if_neg hb]
  unfold Negotiated.pollWrite
  dsimp only
  rcases io.pollWrite_writes (self.port remoteDropped answers) hb with
    ⟨result, io', port', heq, hr, hs, -⟩ |
    ⟨taken, rest, io', port', heq, hsp, -, hre, hst, hi, hm, -⟩
  · rw [heq]
    rcases hr with rfl | ⟨_, rfl⟩ | rfl
    all_goals exact ⟨io', [], rfl, pushes_of_sends hs⟩
  rw [heq]
  refine ⟨io', taken, rfl, hst, hre, hi, rfl, rfl, ?_, ?_⟩
  · show self.toWrite = taken ++ self.toWrite.drop taken.length
    rw [hsp, drop_left]
  · rw [← append_assoc]
    exact hm

/-- What a read from such a stream leaves behind. -/
inductive Reads (self : End σ) (name : String) (p : Protocol) (io : LengthDelimited) (reply : Message)
    (total : List Message) (future extra : List UInt8) : End σ × List UInt8 → Prop
  | waiting {io' : LengthDelimited} {header : Option HeaderLine} {heard queue : List Message} {behind : End σ}
      {passed : List UInt8} (hparty : behind.party = .settled name (.expecting io' header p))
      (hheard : Negotiated.Heard header heard) (htotal : heard ++ queue = total)
      (hframe : InFrame io' (behind.arrived ++ future) extra (queue.map encode))
      (hsent : passed ++ (behind.held ++ io'.writeBuffer) = self.held ++ io.writeBuffer)
      (htoWrite : behind.toWrite = self.toWrite) (hreceived : behind.received = self.received)
      (hreadError : behind.readError = self.readError) : Reads self name p io reply total future extra (behind, passed)
  | confirmed {chunk extra' : List UInt8} {behind : End σ} {passed : List UInt8}
      (hparty : behind.party = .settled name .completed) (hreply : reply = .protocol p)
      (htotal : total = [.header .v1, reply]) (hextra : extra = chunk ++ extra')
      (hrest : behind.arrived ++ future = extra') (hsent : passed ++ behind.held = self.held ++ io.writeBuffer)
      (htoWrite : behind.toWrite = self.toWrite) (hreceived : behind.received = self.received ++ chunk)
      (hreadError : behind.readError = self.readError) : Reads self name p io reply total future extra (behind, passed)
  | failed {behind : End σ} {passed : List UInt8} (hreply : reply = .notAvailable)
      (hreceived : behind.received = self.received) (hreadError : behind.readError ≠ none) :
      Reads self name p io reply total future extra (behind, passed)

section

variable {reply : Message} {total heard queue : List Message} {future extra : List UInt8}
  (hnone : self.readError = none) (hexp : Negotiated.Expects p reply total future extra remoteDropped)
  (hhea : Negotiated.Heard header heard) (htot : heard ++ queue = total)
  (hfra : InFrame io (self.arrived ++ future) extra (queue.map encode))
include hnone hexp hhea htot hfra

theorem read_reads (len : Nat) :
    Reads self name p io reply total future extra
      (self.read name (.expecting io header p) (self.port remoteDropped answers) len) := by
  have hp : Negotiated.Expects p reply total future extra (self.port remoteDropped answers).remoteDropped := hexp
  have hpo := poll_polled hp hhea htot hfra
  unfold read
  rw [if_neg (by rw [hnone]; decide)]
  generalize hpl : poll (.expecting io header p) (self.port remoteDropped answers) = output at hpo
  cases hpo with
  | pending hd hb hh' ht' hf' =>
    rw [pollRead_expecting hpl fun h => nomatch h]
    refine .waiting rfl hh' ht' hf' ?_ rfl rfl rfl
    rw [← append_assoc]
    exact hb
  | confirmed hd hb hr ht' hre =>
    rename_i port'
    rw [pollRead_expecting hpl fun _ => rfl]
    unfold readAfter
    rcases port'.pollRead_cases len with
      ⟨answers', heq, -, -⟩ | ⟨answers', heq, -, -⟩ | ⟨byte, bytes, rest, answers', heq, -, hs, -⟩
    · rw [heq]
      exact .confirmed rfl hr ht' rfl hre hb rfl (append_nil _).symm rfl
    · rw [heq]
      exact .confirmed rfl hr ht' rfl hre hb rfl rfl rfl
    rw [heq]
    refine .confirmed rfl hr ht' ?_ rfl hb rfl rfl rfl
    rw [← hre, hs]
    exact append_assoc _ _ _
  | failed hr =>
    rw [pollRead_expecting hpl fun h => nomatch h]
    exact .failed hr rfl nofun

/-- The application acts on a stream whose confirmation is outstanding. -/
theorem act_expecting (pollFuture : σ → Port → Party σ × Port) (answers : List Answer) (op : Op)
    (hp : self.party = .settled name (.expecting io header p)) :
    Reads self name p io reply total future extra (self.act pollFuture remoteDropped answers op) ∨
    ∃ io' taken, (self.act pollFuture remoteDropped answers op).1.party = .settled name (.expecting io' header p) ∧
      Pushes io self (self.act pollFuture remoteDropped answers op).1 io'
        (self.act pollFuture remoteDropped answers op).2 taken := by
  rcases self.act_cases pollFuture remoteDropped answers op with
    heq | ⟨selecting, -, hs, -⟩ | ⟨count, rfl, heq⟩ | ⟨name', stream, hse, hc⟩
  · rw [heq]
    exact .inr ⟨io, [], hp, rfl, rfl, rfl, rfl, rfl, rfl, (append_nil _).symm⟩
  · cases hp.symm.trans hs
  · rw [heq]
    refine .inr ⟨io, [], hp, rfl, rfl, rfl, rfl, rfl, rfl, ?_⟩
    rw [← append_assoc, take_append_drop, append_nil]
  cases hp.symm.trans hse
  rcases hc with ⟨-, heq⟩ | ⟨len, -, heq⟩ | ⟨-, heq⟩
  · rw [heq]
    exact .inr (pushes_of_write hp)
  · rw [heq]
    exact .inl (read_reads hnone hexp hhea htot hfra len)
  rw [heq]
  obtain ⟨_, io', _, hf, hw, -⟩ := io.pollFlush_writes (self.port remoteDropped answers)
  unfold flush Negotiated.pollFlush
  dsimp only
  rw [hf]
  exact .inr ⟨io', [], rfl, pushes_of_sends hw.sends⟩

end
end End
end RustLibp2p.Multistream
