import RustLibp2p.PollIo
import RustLibp2p.Varint

/-! Length-delimited frames over a polled stream. The reader takes the length byte by byte and then no
more than the payload, so it never reads into what follows a frame. -/

namespace RustLibp2p.Multistream
open PollIo List

def maxFrameSize : Nat := 16383

/-- The bytes of a length that were read so far, or the length of the frame and how much of it was read. -/
inductive ReadState where
  | readLength (buf : List UInt8)
  | readData (len pos : Nat)

structure LengthDelimited where
  readBuffer : List UInt8
  writeBuffer : List UInt8
  readState : ReadState

namespace LengthDelimited

def new : LengthDelimited := ⟨[], [], .readLength []⟩

/-- Gives up the framing; panics while a frame is partly read or not yet written. -/
def intoInner (io : LengthDelimited) : Except IoError Unit :=
  if io.readBuffer = [] ∧ io.writeBuffer = [] then .ok () else .error .panicked

def pollWriteBufferTurn : LengthDelimited × Port →
      Turn (LengthDelimited × Port) (Poll (Except IoError Unit) × LengthDelimited × Port)
  | (io, port) =>
    if io.writeBuffer = [] then .stop (.ready (.ok ()), io, port)
    else
      match port.pollWrite io.writeBuffer with
      | (.pending, port) => .stop (.pending, io, port)
      | (.ready (.ok 0), port) => .stop (.ready (.error (.writeZero "Failed to write buffered frame.")), io, port)
      | (.ready (.ok n), port) => .next ({ io with writeBuffer := io.writeBuffer.drop n }, port)
      | (.ready (.error error), port) => .stop (.ready (.error error), io, port)

def pollWriteBuffer (io : LengthDelimited) (port : Port) : Poll (Except IoError Unit) × LengthDelimited × Port :=
  (loop pollWriteBufferTurn (port.answers.length + 1) (io, port)).getD (.pending, io, port)

def pollNextTurn [UnsignedVarint] : LengthDelimited × Port →
      Turn (LengthDelimited × Port) (Poll (Option (Except IoError (List UInt8))) × LengthDelimited × Port)
  | (io, port) =>
    match io.readState with
    | .readLength buf =>
      match port.pollRead 1 with
      | (.pending, port) => .stop (.pending, io, port)
      | (.ready (.error error), port) => .stop (.ready (some (.error error)), io, port)
      | (.ready (.ok []), port) => .stop (.ready (if buf = [] then none else some (.error .unexpectedEof)), io, port)
      | (.ready (.ok (byte :: _)), port) =>
        let buf := buf ++ [byte]
        if byte &&& 0x80 = 0 then
          match UnsignedVarint.decodeU16 buf with
          | .error _ =>
            .stop (.ready (some (.error (.invalidData "invalid length prefix"))),
              { io with readState := .readLength buf }, port)
          | .ok (len, _) =>
            if 1 ≤ len then
              .next ({ io with
                readState := .readData len 0
                readBuffer := (io.readBuffer ++ List.replicate len 0).take len }, port)
            else .stop (.ready (some (.ok [])), { io with readState := .readLength [] }, port)
        else if buf.length = 2 then
          .stop (.ready (some (.error (.invalidData "Maximum frame length exceeded"))),
            { io with readState := .readLength buf }, port)
        else .next ({ io with readState := .readLength buf }, port)
    | .readData len pos =>
      match port.pollRead (io.readBuffer.length - pos) with
      | (.pending, port) => .stop (.pending, io, port)
      | (.ready (.error error), port) => .stop (.ready (some (.error error)), io, port)
      | (.ready (.ok []), port) => .stop (.ready (some (.error .unexpectedEof)), io, port)
      | (.ready (.ok (byte :: bytes)), port) =>
        let chunk := byte :: bytes
        let frame := io.readBuffer.take pos ++ chunk ++ io.readBuffer.drop (pos + chunk.length)
        if pos + chunk.length = len then
          .stop (.ready (some (.ok frame)), { io with readBuffer := [], readState := .readLength [] }, port)
        else
          .next ({ io with readBuffer := frame, readState := .readData len (pos + chunk.length) }, port)

section

variable (io : LengthDelimited) (port : Port)

/-- The next frame, or none at the end of the stream. -/
def pollNext [UnsignedVarint] : Poll (Option (Except IoError (List UInt8))) × LengthDelimited × Port :=
  (loop pollNextTurn (port.answers.length + 1) (io, port)).getD (.pending, io, port)

/-- The buffer is written first when it holds as much as a frame can. -/
def pollReady : Poll (Except IoError Unit) × LengthDelimited × Port :=
  if maxFrameSize ≤ io.writeBuffer.length then io.pollWriteBuffer port else (.ready (.ok ()), io, port)

def frame [UnsignedVarint] (item : List UInt8) : List UInt8 := UnsignedVarint.encodeU16 item.length ++ item

def startSend [UnsignedVarint] (item : List UInt8) : Except IoError LengthDelimited :=
  if item.length ≤ maxFrameSize then .ok { io with writeBuffer := io.writeBuffer ++ frame item }
  else .error (.invalidData "Maximum frame size exceeded.")

def pollFlush : Poll (Except IoError Unit) × LengthDelimited × Port :=
  match io.pollWriteBuffer port with
  | (.ready (.ok ()), io, port) =>
    let (result, port) := port.pollFlush
    (result, io, port)
  | other => other

/-- Writing through to the stream, as `LengthDelimitedReader` does once the buffered frames are written. -/
def pollWrite (bytes : List UInt8) : Poll (Except IoError Nat) × LengthDelimited × Port :=
  match io.pollWriteBuffer port with
  | (.pending, io, port) => (.pending, io, port)
  | (.ready (.error error), io, port) => (.ready (.error error), io, port)
  | (.ready (.ok ()), io, port) =>
    let (result, port) := port.pollWrite bytes
    (result, io, port)

/-- How far the bytes on their way out still have to go: out of the buffer, out of the transport, and into
the other end. -/
def weight : Nat := port.passed.length + 2 * port.held.length + 3 * io.writeBuffer.length

end

/-- Some of the buffered bytes have moved on. -/
structure Sends (io : LengthDelimited) (port : Port) (io' : LengthDelimited) (port' : Port) : Prop where
  readBuffer : io'.readBuffer = io.readBuffer
  readState : io'.readState = io.readState
  incoming : port'.incoming = port.incoming
  remoteDropped : port'.remoteDropped = port.remoteDropped
  bytes : port'.passed ++ port'.held ++ io'.writeBuffer = port.passed ++ port.held ++ io.writeBuffer
  passed : port.passed <+: port'.passed
  answers : port'.answers.length ≤ port.answers.length
  moved : io'.weight port' < io.weight port ∨ io' = io ∧ port' = { port with answers := port'.answers }

variable {answers : List Answer}

theorem Sends.of_answers (io : LengthDelimited) (port : Port)
    (ha : answers.length ≤ port.answers.length) : Sends io port io { port with answers } :=
  ⟨rfl, rfl, rfl, rfl, rfl, prefix_rfl, ha, .inr ⟨rfl, rfl⟩⟩

theorem Sends.refl (io : LengthDelimited) (port : Port) : Sends io port io port := .of_answers io port (Nat.le_refl _)

variable {io io' io'' : LengthDelimited}

theorem Sends.weight_le {port port' : Port} (hs : Sends io port io' port') : io'.weight port' ≤ io.weight port := by
  rcases hs.moved with hl | ⟨rfl, heq⟩
  · exact Nat.le_of_lt hl
  · rw [heq]
    exact Nat.le_refl _

theorem Sends.trans {port port' port'' : Port} (hf : Sends io port io' port')
    (hn : Sends io' port' io'' port'') : Sends io port io'' port'' where
  readBuffer := hn.readBuffer.trans hf.readBuffer
  readState := hn.readState.trans hf.readState
  incoming := hn.incoming.trans hf.incoming
  remoteDropped := hn.remoteDropped.trans hf.remoteDropped
  bytes := hn.bytes.trans hf.bytes
  passed := hf.passed.trans hn.passed
  answers := Nat.le_trans hn.answers hf.answers
  moved := by
    rcases hf.moved with hl | ⟨rfl, heq⟩
    · exact .inl (Nat.lt_of_le_of_lt hn.weight_le hl)
    rcases hn.moved with hl | ⟨rfl, heq'⟩
    · rw [heq] at hl
      exact .inl hl
    · refine .inr ⟨rfl, ?_⟩
      rw [heq', heq]

theorem pollWriteBufferTurn_cases (io : LengthDelimited) (port : Port) :
    (pollWriteBufferTurn (io, port) = .stop (.ready (.ok ()), io, port) ∧ io.writeBuffer = []) ∨
    (∃ res answers, pollWriteBufferTurn (io, port) = .stop (res, io, { port with answers }) ∧
      answers.length ≤ port.answers.length ∧ ¬ port.Served ∧
      (res = .pending ∨ (∃ err, res = .ready (.error err)) ∧ port.remoteDropped)) ∨
    ∃ io' port', pollWriteBufferTurn (io, port) = .next (io', port') ∧ Sends io port io' port' ∧
      io'.weight port' < io.weight port ∧ port'.answers.length < port.answers.length := by
  unfold pollWriteBufferTurn
  by_cases hb : io.writeBuffer = []
  · exact .inl ⟨if_pos hb, hb⟩
  dsimp only
  rw [if_neg hb]
  rcases port.pollWrite_cases hb with
    ⟨answers, hw, ha, hu⟩ |
    ⟨res, answers, hw, ha, hu, hd, hr⟩ |
    ⟨taken, rest, answers, hw, ha, hs, ht⟩
  · rw [hw]
    exact .inr (.inl ⟨_, answers, rfl, ha, hu, .inl rfl⟩)
  · rw [hw]
    rcases hr with rfl | rfl
    all_goals exact .inr (.inl ⟨_, answers, rfl, Nat.le_of_lt ha, hu, .inr ⟨⟨_, rfl⟩, hd⟩⟩)
  rw [hw]
  obtain ⟨byte, bytes, rfl⟩ := exists_cons_of_ne_nil ht
  have hdr : io.writeBuffer.drop (byte :: bytes).length = rest := by rw [hs, drop_left]
  have hl : ({ io with writeBuffer := io.writeBuffer.drop (byte :: bytes).length } : LengthDelimited).weight
      { port with held := port.held ++ byte :: bytes, answers } < io.weight port := by
    unfold weight
    rw [hdr, hs]
    simp only [length_append, length_cons]
    omega
  refine .inr (.inr ⟨_, _, rfl, ⟨rfl, rfl, rfl, rfl, ?_, prefix_rfl, Nat.le_of_lt ha, .inl hl⟩, hl, ha⟩)
  rw [hdr, hs]
  simp only [append_assoc]

/-- What writing the buffer, or flushing, comes to: a call that is not done has moved some bytes if the
transport was ready, and one that fails has found the other end dropped. -/
structure Writes (io : LengthDelimited) (port : Port) (result : Poll (Except IoError Unit))
    (io' : LengthDelimited) (port' : Port) : Prop where
  sends : Sends io port io' port'
  notFailed : port.remoteDropped = false → result = .pending ∨ result = .ready (.ok ())
  progress : result ≠ .ready (.ok ()) → port.Served → io'.weight port' < io.weight port

theorem pollWriteBuffer_writes (io : LengthDelimited) (port : Port) :
    ∃ res io' port', io.pollWriteBuffer port = (res, io', port') ∧ Writes io port res io' port' ∧
      (res = .ready (.ok ()) → io'.writeBuffer = []) := by
  suffices hs : Writes io port (io.pollWriteBuffer port).1 (io.pollWriteBuffer port).2.1 (io.pollWriteBuffer port).2.2 ∧
      ((io.pollWriteBuffer port).1 = .ready (.ok ()) → (io.pollWriteBuffer port).2.1.writeBuffer = []) from
    ⟨_, _, _, rfl, hs⟩
  refine loop_spec (fun st => Sends io port st.1 st.2 ∧
      (st = (io, port) ∨ st.1.weight st.2 < io.weight port))
    (fun (out : _ × _ × _) => Writes io port out.1 out.2.1 out.2.2 ∧
      (out.1 = .ready (.ok ()) → out.2.1.writeBuffer = []))
    (fun st => st.2.answers.length) ?_ ⟨.refl io port, .inl rfl⟩ (Nat.lt_succ_self _) _
  rintro ⟨io', port'⟩ ⟨hse, hst⟩
  rcases pollWriteBufferTurn_cases io' port' with
    ⟨heq, he⟩ | ⟨res, answers, heq, ha, hu, hr⟩ | ⟨_, _, heq, hn, hl, ha⟩
  · rw [heq]
    exact ⟨⟨hse, fun _ => .inr rfl, absurd rfl⟩, fun _ => he⟩
  · rw [heq]
    have hp : port.Served → io'.weight { port' with answers } < io.weight port := by
      intro hsr
      rcases hst with heq | hl
      · cases heq
        exact absurd hsr hu
      · exact hl
    refine ⟨⟨hse.trans (.of_answers io' port' ha), ?_, fun _ => hp⟩, ?_⟩
    · intro ho
      rcases hr with h | ⟨-, hd⟩
      · exact .inl h
      · rw [hse.remoteDropped, ho] at hd
        cases hd
    · rintro rfl
      rcases hr with h | ⟨⟨err, h⟩, -⟩ <;> cases h
  · rw [heq]
    exact ⟨⟨hse.trans hn, .inr (Nat.lt_of_lt_of_le hl hse.weight_le)⟩, ha⟩

theorem pollWriteBuffer_of_empty (port : Port) (he : io.writeBuffer = []) :
    io.pollWriteBuffer port = (.ready (.ok ()), io, port) := by
  unfold pollWriteBuffer loop pollWriteBufferTurn
  dsimp only
  rw [if_pos he]
  rfl

theorem pollWriteBuffer_written {port port' : Port} (hw : io.pollWriteBuffer port = (.ready (.ok ()), io', port')) :
    io' = io ∧ port' = port ∨ io'.weight port' < io.weight port := by
  by_cases he : io.writeBuffer = []
  · rw [pollWriteBuffer_of_empty port he] at hw
    cases hw
    exact .inl ⟨rfl, rfl⟩
  obtain ⟨_, _, _, heq, hwr, hwe⟩ := io.pollWriteBuffer_writes port
  cases heq.symm.trans hw
  rcases hwr.sends.moved with hl | ⟨rfl, -⟩
  · exact .inr hl
  · exact absurd (hwe rfl) he

theorem pollReady_writes (io : LengthDelimited) (port : Port) :
    ∃ res io' port', io.pollReady port = (res, io', port') ∧ Writes io port res io' port' := by
  unfold pollReady
  split
  · obtain ⟨res, io', port', heq, hw, -⟩ := io.pollWriteBuffer_writes port
    exact ⟨res, io', port', heq, hw⟩
  · exact ⟨_, _, _, rfl, .refl io port, fun _ => .inr rfl, absurd rfl⟩

theorem pollReady_of_lt (port : Port) (hs : io.writeBuffer.length < maxFrameSize) :
    io.pollReady port = (.ready (.ok ()), io, port) :=
  if_neg (Nat.not_le_of_lt hs)

theorem Sends.of_flush (io : LengthDelimited) (port : Port) (ha : answers.length ≤ port.answers.length) :
    Sends io port io { port with held := [], passed := port.passed ++ port.held, answers } := by
  refine ⟨rfl, rfl, rfl, rfl, by rw [append_nil], prefix_append _ _, ha, ?_⟩
  cases hh : port.held with
  | nil => exact .inr ⟨rfl, by rw [append_nil]⟩
  | cons =>
    refine .inl ?_
    unfold weight
    simp only [hh, length_append, length_cons, length_nil]
    omega

theorem pollFlush_writes (io : LengthDelimited) (port : Port) :
    ∃ res io' port', io.pollFlush port = (res, io', port') ∧ Writes io port res io' port' ∧
      (res = .ready (.ok ()) → io'.writeBuffer = [] ∧ port'.held = [] ∧
        port'.answers.length < port.answers.length) := by
  obtain ⟨res, io', port', ho, hw, hwr⟩ := io.pollWriteBuffer_writes port
  unfold pollFlush
  rw [ho]
  match res with
  | .pending | .ready (.error error) => exact ⟨_, _, _, rfl, hw, nofun⟩
  | .ready (.ok ()) =>
    rcases port'.pollFlush_cases with ⟨answers, hf, ha, hu⟩ | ⟨answers, hf, ha⟩
    · dsimp only
      rw [hf]
      refine ⟨_, _, _, rfl, ⟨hw.sends.trans (.of_answers io' port' ha), fun _ => .inl rfl, fun _ hs => ?_⟩, nofun⟩
      rcases pollWriteBuffer_written ho with ⟨-, rfl⟩ | hl
      · exact absurd hs hu
      · exact hl
    · dsimp only
      rw [hf]
      exact ⟨_, _, _, rfl, ⟨hw.sends.trans (.of_flush io' port' (Nat.le_of_lt ha)),
        fun _ => .inr rfl, absurd rfl⟩,
        fun _ => ⟨hwr rfl, rfl, Nat.lt_of_lt_of_le ha hw.sends.answers⟩⟩

theorem pollFlush_of_empty (port : Port) (he : io.writeBuffer = []) :
    io.pollFlush port = (port.pollFlush.1, io, port.pollFlush.2) := by
  unfold pollFlush
  rw [pollWriteBuffer_of_empty port he]

variable {bytes rest : List UInt8}

theorem pollWrite_writes (io : LengthDelimited) (port : Port) (hb : bytes ≠ []) :
    (∃ res io' port', io.pollWrite port bytes = (res, io', port') ∧
        (res = .pending ∨ (∃ err, res = .ready (.error err)) ∨ res = .ready (.ok 0)) ∧
        Sends io port io' port' ∧ (port.Served → io'.weight port' < io.weight port)) ∨
    ∃ taken rest io' port', io.pollWrite port bytes = (.ready (.ok taken.length), io', port') ∧
        bytes = taken ++ rest ∧ taken ≠ [] ∧ io'.readBuffer = io.readBuffer ∧ io'.readState = io.readState ∧
        port'.incoming = port.incoming ∧
        port'.passed ++ port'.held ++ io'.writeBuffer = port.passed ++ port.held ++ io.writeBuffer ++ taken ∧
        io'.weight port' ≤ io.weight port + 2 * taken.length := by
  obtain ⟨res, io', port', ho, hw, hwr⟩ := io.pollWriteBuffer_writes port
  unfold pollWrite
  rw [ho]
  match res with
  | .pending => exact .inl ⟨_, _, _, rfl, .inl rfl, hw.sends, hw.progress nofun⟩
  | .ready (.error err) => exact .inl ⟨_, _, _, rfl, .inr (.inl ⟨_, rfl⟩), hw.sends, hw.progress nofun⟩
  | .ready (.ok ()) =>
    have hp : ¬ port'.Served → port.Served → io'.weight port' < io.weight port := by
      intro hu hs
      rcases pollWriteBuffer_written ho with ⟨-, rfl⟩ | hl
      · exact absurd hs hu
      · exact hl
    dsimp only
    rcases port'.pollWrite_cases hb with
      ⟨answers, hwe, ha, hu⟩ |
      ⟨res, answers, hwe, ha, hu, -, hr⟩ |
      ⟨taken, rest, answers, hwe, ha, hsp, ht⟩
    · rw [hwe]
      exact .inl ⟨_, io', _, rfl, .inl rfl, hw.sends.trans (.of_answers io' port' ha), hp hu⟩
    · rw [hwe]
      have hse := hw.sends.trans (.of_answers io' port' (Nat.le_of_lt ha))
      rcases hr with rfl | rfl
      · exact .inl ⟨_, io', _, rfl, .inr (.inr rfl), hse, hp hu⟩
      · exact .inl ⟨_, io', _, rfl, .inr (.inl ⟨_, rfl⟩), hse, hp hu⟩
    · rw [hwe]
      refine .inr ⟨taken, rest, io', _, rfl, hsp, ht, hw.sends.readBuffer,
        hw.sends.readState, hw.sends.incoming, ?_, ?_⟩
      · have hb := hw.sends.bytes
        rw [hwr rfl, append_nil] at hb
        rw [hwr rfl, append_nil, ← hb, append_assoc]
      have hle := hw.sends.weight_le
      unfold weight at hle ⊢
      simp only [length_append]
      omega

/-- Bytes that had arrived were taken. -/
structure Took (io : LengthDelimited) (port : Port) (io' : LengthDelimited) (port' : Port) : Prop where
  port_eq : port' = { port with incoming := port'.incoming, answers := port'.answers }
  writeBuffer : io'.writeBuffer = io.writeBuffer
  suffix : ∃ taken, port.incoming = taken ++ port'.incoming
  shorter : port'.incoming.length < port.incoming.length
  answers : port'.answers.length < port.answers.length

theorem Took.of_cons {port : Port} {byte : UInt8} (hs : port.incoming = byte :: bytes ++ rest)
    (ha : answers.length < port.answers.length) (hb : io'.writeBuffer = io.writeBuffer) :
    Took io port io' { port with incoming := rest, answers } := by
  refine ⟨rfl, hb, ⟨_, hs⟩, ?_, ha⟩
  rw [hs, length_append, length_cons]
  show rest.length < _
  omega

theorem Took.trans {port port' port'' : Port} (hf : Took io port io' port')
    (hn : Took io' port' io'' port'') : Took io port io'' port'' where
  port_eq := by rw [hn.port_eq, hf.port_eq]
  writeBuffer := hn.writeBuffer.trans hf.writeBuffer
  suffix := by
    obtain ⟨taken, ht⟩ := hf.suffix
    obtain ⟨taken', ht'⟩ := hn.suffix
    exact ⟨taken ++ taken', by rw [append_assoc, ← ht', ht]⟩
  shorter := Nat.lt_trans hn.shorter hf.shorter
  answers := Nat.lt_trans hn.answers hf.answers

section

variable {port port' : Port}

theorem Took.with_answers (ht : Took io port io' port')
    {answers : List Answer} (ha : answers.length ≤ port'.answers.length) :
    Took io port io' { port' with answers } :=
  { ht with
    port_eq := congrArg (fun port : Port => { port with answers }) ht.port_eq
    answers := Nat.lt_of_le_of_lt ha ht.answers }

theorem weight_of_reads (hp : port' = { port with incoming := port'.incoming, answers := port'.answers })
    (hb : io'.writeBuffer = io.writeBuffer) : io'.weight port' = io.weight port := by
  unfold weight
  rw [hp, hb]

theorem Took.weight_eq (ht : Took io port io' port') : io'.weight port' = io.weight port :=
  weight_of_reads ht.port_eq ht.writeBuffer

end

theorem length_le_of_suffix (hs : ∃ taken, bytes = taken ++ rest) : rest.length ≤ bytes.length := by
  obtain ⟨_, rfl⟩ := hs
  rw [length_append]
  omega

variable [UnsignedVarint]

theorem pollNextTurn_cases (io : LengthDelimited) (port : Port) :
    (∃ answers, pollNextTurn (io, port) = .stop (.pending, io, { port with answers }) ∧
      answers.length ≤ port.answers.length ∧
      (port.Served → port.incoming = [] ∧ port.remoteDropped = false)) ∨
    (∃ res answers, pollNextTurn (io, port) = .stop (.ready res, io, { port with answers }) ∧
      answers.length < port.answers.length ∧ ∀ item, res ≠ some (.ok item)) ∨
    ∃ io' port', (pollNextTurn (io, port) = .next (io', port') ∨
      ∃ res, pollNextTurn (io, port) = .stop (.ready (some res), io', port')) ∧ Took io port io' port' := by
  unfold pollNextTurn
  dsimp only
  cases hs : io.readState with
  | readLength =>
    rcases port.pollRead_cases 1 with
      ⟨answers, hr, ha, hse⟩ | ⟨answers, hr, ha, -⟩ |
      ⟨byte, bytes, rest, answers, hr, ha, hsp, -⟩
    · rw [hr]
      exact .inl ⟨answers, rfl, ha, hse⟩
    · rw [hr]
      refine .inr (.inl ⟨_, answers, rfl, ha, fun item => ?_⟩)
      split <;> exact nofun
    rw [hr]
    refine .inr (.inr ?_)
    dsimp only
    split
    · split
      · exact ⟨_, _, .inr ⟨_, rfl⟩, .of_cons hsp ha rfl⟩
      · split
        · exact ⟨_, _, .inl rfl, .of_cons hsp ha rfl⟩
        · exact ⟨_, _, .inr ⟨_, rfl⟩, .of_cons hsp ha rfl⟩
    · split
      · exact ⟨_, _, .inr ⟨_, rfl⟩, .of_cons hsp ha rfl⟩
      · exact ⟨_, _, .inl rfl, .of_cons hsp ha rfl⟩
  | readData len pos =>
    dsimp only
    rcases port.pollRead_cases (io.readBuffer.length - pos) with
      ⟨answers, hr, ha, hse⟩ | ⟨answers, hr, ha, -⟩ |
      ⟨byte, bytes, rest, answers, hr, ha, hsp, -⟩
    · rw [hr]
      exact .inl ⟨answers, rfl, ha, hse⟩
    · rw [hr]
      exact .inr (.inl ⟨_, answers, rfl, ha, nofun⟩)
    rw [hr]
    refine .inr (.inr ?_)
    dsimp only
    split
    · exact ⟨_, _, .inr ⟨_, rfl⟩, .of_cons hsp ha rfl⟩
    · exact ⟨_, _, .inl rfl, .of_cons hsp ha rfl⟩

/-- A poll takes some of the bytes that have arrived, at least one when it gives a frame, and one if it can
when it is pending. -/
inductive Reads {ε α : Type} (io : LengthDelimited) (port : Port) :
    Poll (Option (Except ε α)) × LengthDelimited × Port → Prop
  | idle {answers : List Answer} (hanswers : answers.length ≤ port.answers.length)
      (hserved : port.Served → port.incoming = [] ∧ port.remoteDropped = false) :
      Reads io port (.pending, io, { port with answers := answers })
  | partly {io' port'} (htook : Took io port io' port') : Reads io port (.pending, io', port')
  | ended {result : Option (Except ε α)} {io' port'}
      (hframe : port' = { port with incoming := port'.incoming, answers := port'.answers })
      (hbuffer : io'.writeBuffer = io.writeBuffer)
      (hsuffix : ∃ taken, port.incoming = taken ++ port'.incoming)
      (hanswers : port'.answers.length < port.answers.length) (hresult : ∀ item, result ≠ some (.ok item)) :
      Reads io port (.ready result, io', port')
  | item {item : α} {io' port'} (htook : Took io port io' port') : Reads io port (.ready (some (.ok item)), io', port')

theorem pollNext_reads (io : LengthDelimited) (port : Port) : Reads io port (io.pollNext port) := by
  have ht : ∀ {io' port' io'' port''}, (io', port') = (io, port) ∨ Took io port io' port' →
      Took io' port' io'' port'' → Took io port io'' port'' := by
    rintro io' port' io'' port'' (heq | hf) hn
    · cases heq
      exact hn
    · exact hf.trans hn
  refine loop_spec (fun st => st = (io, port) ∨ Took io port st.1 st.2) (Reads io port)
    (fun st => st.2.answers.length) ?_ (.inl rfl) (Nat.lt_succ_self _) _
  rintro ⟨io', port'⟩ hs
  rcases pollNextTurn_cases io' port' with
    ⟨answers, heq, ha, hse⟩ | ⟨result, answers, heq, ha, hr⟩ |
    ⟨io'', port'', heq | ⟨result, heq⟩, hn⟩
  · rw [heq]
    rcases hs with heq | hf
    · cases heq
      exact .idle ha hse
    · exact .partly (hf.with_answers ha)
  · rw [heq]
    rcases hs with heq | hf
    · cases heq
      exact .ended rfl rfl ⟨[], rfl⟩ ha hr
    · have hl := hf.with_answers (Nat.le_of_lt ha)
      exact .ended hl.port_eq hl.writeBuffer hl.suffix hl.answers hr
  · rw [heq]
    exact ⟨.inr (ht hs hn), hn.answers⟩
  rw [heq]
  have hl := ht hs hn
  match result with
  | .ok item => exact .item hl
  | .error err => exact .ended hl.port_eq hl.writeBuffer hl.suffix hl.answers nofun

end LengthDelimited

/-! Reading the frames that the other end has sent: in whatever pieces the bytes arrive, the reader gives
the frames one by one and stops exactly behind the last byte of each. -/
open UnsignedVarint

namespace LengthDelimited

variable [UnsignedVarint]

def wire (items : List (List UInt8)) : List UInt8 := items.flatMap frame

theorem wire_append (items more : List (List UInt8)) : wire (items ++ more) = wire items ++ wire more := flatMap_append

/-- Items that a frame can carry and that the reader does not take for empty. -/
def Fits (item : List UInt8) : Prop := 1 ≤ item.length ∧ item.length ≤ maxFrameSize

instance (item : List UInt8) : Decidable (Fits item) := inferInstanceAs (Decidable (_ ∧ _))

/-- The bytes `rest` that the reader will come to are those of the frames of `items`, less what it has read
of the first of them, and then `extra`. -/
inductive InFrame (io : LengthDelimited) (rest extra : List UInt8) : List (List UInt8) → Prop
  | done (hstate : io.readState = .readLength []) (hbuffer : io.readBuffer = []) (hrest : rest = extra) :
      InFrame io rest extra []
  | length {buf tail item : List UInt8} {items : List (List UInt8)} (hstate : io.readState = .readLength buf)
      (hbuffer : io.readBuffer = []) (hlength : encodeU16 item.length = buf ++ tail) (htail : tail ≠ [])
      (hrest : rest = tail ++ item ++ wire items ++ extra) : InFrame io rest extra (item :: items)
  | data {item : List UInt8} {items : List (List UInt8)} {pos : Nat}
      (hstate : io.readState = .readData item.length pos) (hlength : io.readBuffer.length = item.length)
      (hpos : pos < item.length) (htake : io.readBuffer.take pos = item.take pos)
      (hrest : rest = item.drop pos ++ wire items ++ extra) : InFrame io rest extra (item :: items)

variable {io : LengthDelimited} {rest extra item future : List UInt8} {items : List (List UInt8)} {port : Port}

theorem InFrame.start (items : List (List UInt8)) (extra : List UInt8) (hs : io.readState = .readLength [])
    (hb : io.readBuffer = []) : InFrame io (wire items ++ extra) extra items := by
  cases items with
  | nil => exact .done hs hb rfl
  | cons =>
    refine .length hs hb (nil_append _).symm (encodeU16_ne_nil _) ?_
    simp only [wire, flatMap_cons, frame, append_assoc]

theorem InFrame.of_reader {io' : LengthDelimited}
    (hfra : InFrame io rest extra items) (hst : io'.readState = io.readState)
    (hbu : io'.readBuffer = io.readBuffer) : InFrame io' rest extra items := by
  cases hfra with
  | done hs hb hr => exact .done (hst.trans hs) (hbu.trans hb) hr
  | length hs hb hlen ht hr => exact .length (hst.trans hs) (hbu.trans hb) hlen ht hr
  | data hs hlen hpos hta hr =>
    exact .data (hst.trans hs) (by rw [hbu, hlen]) hpos (by rw [hbu, hta]) hr

theorem InFrame.append (hfra : InFrame io rest [] items) (more : List (List UInt8)) :
    InFrame io (rest ++ wire more) [] (items ++ more) := by
  cases hfra with
  | done hs hb hr =>
    have hst := InFrame.start more [] hs hb
    rw [append_nil] at hst
    rw [hr]
    exact hst
  | length hs hb hlen ht hr =>
    show InFrame io _ [] (_ :: (_ ++ more))
    refine .length hs hb hlen ht ?_
    rw [hr, wire_append]
    simp only [append_assoc, append_nil]
  | data hs hlen hpos hta hr =>
    show InFrame io _ [] (_ :: (_ ++ more))
    refine .data hs hlen hpos hta ?_
    rw [hr, wire_append]
    simp only [append_assoc, append_nil]

theorem InFrame.append_extra (hfra : InFrame io rest extra items) (more : List UInt8) :
    InFrame io (rest ++ more) (extra ++ more) items := by
  cases hfra with
  | done hs hb hr => exact .done hs hb (by rw [hr])
  | length hs hb hlen ht hr =>
    exact .length hs hb hlen ht (by rw [hr]; simp only [append_assoc])
  | data hs hlen hpos hta hr =>
    exact .data hs hlen hpos hta (by rw [hr]; simp only [append_assoc])

theorem InFrame.rest_ne_nil (hfra : InFrame io rest extra (item :: items)) : rest ≠ [] := by
  cases hfra with
  | length hs hb hlen ht hr =>
    rw [hr]
    simp [ht]
  | data hs hlen hpos hta hr =>
    rw [hr]
    simp [hpos]

variable {buf tail : List UInt8}

theorem encodeU16_split {byte : UInt8} (hf : Fits item) (hlen : encodeU16 item.length = buf ++ byte :: tail) :
    byte &&& 0x80 = 0 ∧ tail = [] ∧ decodeU16 (buf ++ [byte]) = .ok (item.length, []) ∨
    byte &&& 0x80 ≠ 0 ∧ tail ≠ [] ∧ (buf ++ [byte]).length ≠ 2 := by
  have hm : item.length < 2 ^ 14 := Nat.lt_succ_of_le hf.2
  have hw : item.length < 2 ^ 16 := Nat.lt_trans hm (by decide)
  have hl := encodeU16_length hm
  obtain ⟨front, last, heq, hla, hfr⟩ := encodeU16_bits hw
  have hs := heq.symm.trans hlen
  cases tail with
  | nil =>
    obtain ⟨rfl, rfl⟩ : front = buf ∧ last = byte := append_inj' hs rfl |>.imp_right fun h => (cons.inj h).1
    exact .inl ⟨hla, rfl, heq ▸ decodeU16_encodeU16 hw⟩
  | cons next tail =>
    rw [hlen] at hl
    simp only [length_append, length_cons] at hl
    refine .inr ⟨hfr byte ?_, cons_ne_nil _ _, by simp; omega⟩
    have hdrop := congrArg dropLast hs
    rw [dropLast_concat, dropLast_append_of_ne_nil (cons_ne_nil _ _), dropLast_cons_cons] at hdrop
    rw [hdrop]
    exact mem_append_right _ mem_cons_self

/-- What a poll gives to a reader within the frames of `items`: the first of them, or nothing yet. -/
inductive Decodes (port : Port) (future extra : List UInt8) (items : List (List UInt8)) :
    Poll (Option (Except IoError (List UInt8))) × LengthDelimited × Port → Prop
  | pending {io' port'} (hframe : InFrame io' (port'.incoming ++ future) extra items) :
      Decodes port future extra items (.pending, io', port')
  | item {item items' io' port'} (hitems : items = item :: items')
      (hframe : InFrame io' (port'.incoming ++ future) extra items') (hbuffer : io'.readBuffer = []) :
      Decodes port future extra items (.ready (some (.ok item)), io', port')
  | ended {io' port'} (hitems : items = []) (hdropped : port.remoteDropped = true) :
      Decodes port future extra items (.ready none, io', port')

open Decodes

/-- A turn goes on within the frames, or gives what a poll may give. -/
def TurnDecodes (port : Port) (future extra : List UInt8) (items : List (List UInt8)) :
    Turn (LengthDelimited × Port) (Poll (Option (Except IoError (List UInt8))) × LengthDelimited × Port) → Prop
  | .next (io', port') => InFrame io' (port'.incoming ++ future) extra items
  | .stop output => Decodes port future extra items output

theorem pollNextTurn_length (hs : io.readState = .readLength buf) (hb : io.readBuffer = [])
    (hlen : encodeU16 item.length = buf ++ tail) (ht : tail ≠ [])
    (hr : port.incoming ++ future = tail ++ item ++ wire items ++ extra) (hf : Fits item)
    (hfut : port.remoteDropped → future = []) :
    TurnDecodes port future extra (item :: items) (pollNextTurn (io, port)) := by
  unfold pollNextTurn
  dsimp only
  rw [hs]
  rcases port.pollRead_cases 1 with
    ⟨answers, hre, -, -⟩ | ⟨answers, hre, -, he⟩ | ⟨byte, bytes, rest, answers, hre, -, hsp, ho⟩
  · rw [hre]
    exact pending (.length hs hb hlen ht hr)
  · obtain ⟨hem, hd⟩ := he Nat.one_pos
    rw [hem, hfut hd, append_nil] at hr
    simp [ht] at hr
  rw [hre]
  have hby : bytes = [] := eq_nil_of_length_eq_zero (Nat.le_zero.1 (Nat.le_of_succ_le_succ ho))
  subst hby
  obtain ⟨_, _, rfl⟩ := exists_cons_of_ne_nil ht
  rw [hsp] at hr
  simp only [cons_append, nil_append, List.cons.injEq] at hr
  obtain ⟨rfl, hr⟩ := hr
  dsimp only
  rcases encodeU16_split hf hlen with ⟨hc, rfl, hde⟩ | ⟨hse, ht, hm⟩
  · rw [if_pos hc, hde]
    dsimp only
    rw [if_pos hf.1]
    refine InFrame.data rfl ?_ hf.1 rfl hr
    simp [hb]
  · rw [if_neg hse, if_neg hm]
    refine InFrame.length rfl hb ?_ ht hr
    rw [hlen, append_assoc]
    rfl

theorem pollNextTurn_data {pos : Nat} (hs : io.readState = .readData item.length pos)
    (hl : io.readBuffer.length = item.length) (hpos : pos < item.length)
    (ht : io.readBuffer.take pos = item.take pos)
    (hr : port.incoming ++ future = item.drop pos ++ wire items ++ extra)
    (hfut : port.remoteDropped → future = []) :
    TurnDecodes port future extra (item :: items) (pollNextTurn (io, port)) := by
  unfold pollNextTurn
  dsimp only
  rw [hs]
  dsimp only
  rcases port.pollRead_cases (io.readBuffer.length - pos) with
    ⟨answers, hre, -, -⟩ | ⟨answers, hre, -, he⟩ | ⟨byte, bytes, rest, answers, hre, -, hsp, hm⟩
  · rw [hre]
    exact pending (.data hs hl hpos ht hr)
  · obtain ⟨hem, hd⟩ := he (by omega)
    rw [hem, hfut hd, append_nil] at hr
    have hle := congrArg List.length hr
    simp only [length_nil, length_append, length_drop] at hle
    omega
  · rw [hre]
    dsimp only
    generalize byte :: bytes = chunk at hsp hm ⊢
    rw [hl] at hm
    -- the chunk is the next part of the item
    have hp : item.take pos ++ chunk = item.take (pos + chunk.length) ∧
        rest ++ future = item.drop (pos + chunk.length) ++ wire items ++ extra := by
      rw [hsp, ← take_append_drop chunk.length (item.drop pos)] at hr
      simp only [append_assoc] at hr
      obtain ⟨hc, hr⟩ := append_inj hr (by rw [length_take, length_drop]; omega)
      rw [drop_drop] at hr
      refine ⟨?_, by rw [hr, append_assoc]⟩
      rw [hc, length_take, length_drop, ← take_add]
      congr 1
      omega
    rw [ht, hp.1]
    by_cases hf : pos + chunk.length = item.length
    · have hn : io.readBuffer.drop (pos + chunk.length) = [] := drop_eq_nil_of_le (by omega)
      rw [if_pos hf, hn, hf, take_length, append_nil]
      refine Decodes.item rfl ?_ rfl
      have hne : rest ++ future = wire items ++ extra := by rw [hp.2, hf, drop_length, nil_append]
      rw [hne]
      exact .start items extra rfl rfl
    · rw [if_neg hf]
      have hlen : (item.take (pos + chunk.length)).length = pos + chunk.length := by
        rw [length_take]
        omega
      refine InFrame.data rfl ?_ (by omega) ?_ hp.2
      · rw [length_append, hlen, length_drop]
        omega
      · exact take_left' hlen

section

variable (hfra : InFrame io (port.incoming ++ future) extra items) (hite : ∀ item ∈ items, Fits item)
  (hext : items = [] → extra = []) (hfut : port.remoteDropped = true → future = [])
include hfra hite hext hfut

theorem pollNextTurn_decodes : TurnDecodes port future extra items (pollNextTurn (io, port)) := by
  cases hfra with
  | done hs hb hr =>
    have he := hr.trans (hext rfl)
    rw [append_eq_nil_iff] at he
    unfold pollNextTurn
    dsimp only
    rw [hs]
    rcases port.pollRead_cases 1 with
      ⟨answers, hre, -, -⟩ | ⟨answers, hre, -, hen⟩ | ⟨byte, bytes, rest, answers, hre, -, hsp, -⟩
    · rw [hre]
      exact pending (.done hs hb hr)
    · rw [hre]
      exact ended rfl (hen Nat.one_pos).2
    · rw [he.1] at hsp
      cases hsp
  | length hs hb hlen ht hr =>
    exact pollNextTurn_length hs hb hlen ht hr (hite _ mem_cons_self) hfut
  | data hs hlen hpos hta hr => exact pollNextTurn_data hs hlen hpos hta hr hfut

theorem pollNext_decodes : Decodes port future extra items (io.pollNext port) := by
  refine loop_spec (fun (st : LengthDelimited × Port) =>
      InFrame st.1 (st.2.incoming ++ future) extra items ∧ st.2.remoteDropped = port.remoteDropped)
    (Decodes port future extra items) (fun st => st.2.answers.length) ?_ ⟨hfra, rfl⟩
    (Nat.lt_succ_self _) _
  rintro ⟨io', port'⟩ ⟨hfra, hd⟩
  have hde := pollNextTurn_decodes hfra hite hext (hd ▸ hfut)
  cases heq : pollNextTurn (io', port') with
  | stop =>
    rw [heq] at hde
    cases hde with
    | pending hfra => exact .pending hfra
    | item hite hfra hb => exact .item hite hfra hb
    | ended hite he => exact .ended hite (hd.symm.trans he)
  | next st =>
    obtain ⟨io'', port''⟩ := st
    have ht : Took io' port' io'' port'' := by
      rcases pollNextTurn_cases io' port' with ⟨_, heq', -⟩ | ⟨_, _, heq', -⟩ | ⟨_, _, heq' | ⟨_, heq'⟩, ht⟩ <;>
        cases heq.symm.trans heq'
      exact ht
    rw [heq] at hde
    refine ⟨⟨hde, ?_⟩, ht.answers⟩
    rw [ht.port_eq]
    exact hd

end
end LengthDelimited
end RustLibp2p.Multistream
