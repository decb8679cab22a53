import RustLibp2p.Bytes
import RustLibp2p.MultistreamFrame

/-! The messages of multistream-select and the stream of messages over length-delimited frames. -/

namespace RustLibp2p.Multistream
open PollIo Bytes LengthDelimited List

def maxProtocols : Nat := 1000

inductive Version where
  | v1 | v1Lazy
  deriving DecidableEq

inductive HeaderLine where
  | v1
  deriving DecidableEq

def HeaderLine.ofVersion : Version → HeaderLine
  | .v1 => .v1
  | .v1Lazy => .v1

inductive ProtocolError where
  | ioError (error : IoError)
  | invalidMessage
  | invalidProtocol
  | tooManyProtocols
  deriving DecidableEq

def ProtocolError.toIoError : ProtocolError → IoError
  | .ioError error => error
  | _ => .invalidData "invalid data"

inductive NegotiationError where
  | protocolError (error : ProtocolError)
  | failed

def NegotiationError.toIoError : NegotiationError → IoError
  | .protocolError error => error.toIoError
  | .failed => .other "Protocol negotiation failed."

/-- `b'/'` and `b'\n'`. -/
def slash : UInt8 := 0x2f

def lineFeed : UInt8 := 0x0a

/-- A protocol name, which starts with a slash. -/
structure Protocol where
  name : String
  startsWithSlash : (utf8Bytes name).head? = some slash
  deriving DecidableEq

namespace Protocol

def tryFromStr (name : String) : Except ProtocolError Protocol :=
  if hslash : (utf8Bytes name).head? = some slash then .ok ⟨name, hslash⟩ else .error .invalidProtocol

def tryFromBytes (bytes : List UInt8) : Except ProtocolError Protocol :=
  if bytes.head? = some slash then
    match fromUtf8 bytes with
    | none => .error .invalidProtocol
    | some name => tryFromStr name
  else .error .invalidProtocol

theorem tryFromStr_name (protocol : Protocol) : tryFromStr protocol.name = .ok protocol :=
  dif_pos protocol.startsWithSlash

theorem tryFromBytes_utf8Bytes (protocol : Protocol) : tryFromBytes (utf8Bytes protocol.name) = .ok protocol := by
  unfold tryFromBytes
  rw [if_pos protocol.startsWithSlash, fromUtf8_utf8Bytes]
  exact protocol.tryFromStr_name

end Protocol

inductive Message where
  | header (line : HeaderLine)
  | protocol (protocol : Protocol)
  | listProtocols
  | protocols (protocols : List Protocol)
  | notAvailable
  deriving DecidableEq

namespace Message

def msgMultistream : List UInt8 := utf8Bytes "/multistream/1.0.0\n"

def msgProtocolNa : List UInt8 := utf8Bytes "na\n"

def msgLs : List UInt8 := utf8Bytes "ls\n"

variable [UnsignedVarint]

def encode : Message → List UInt8
  | .header .v1 => msgMultistream
  | .protocol proto => utf8Bytes proto.name ++ [lineFeed]
  | .listProtocols => msgLs
  | .protocols protos =>
    (protos.flatMap fun proto =>
      UnsignedVarint.encodeUsize ((utf8Bytes proto.name).length + 1) ++ utf8Bytes proto.name ++ [lineFeed]) ++
    [lineFeed]
  | .notAvailable => msgProtocolNa

/-- The names of an `ls` response, of which at most `left` may follow. -/
def decodeProtocols (left : Nat) (remaining : List UInt8) : Except ProtocolError (List Protocol) :=
  if remaining = [lineFeed] then .ok []
  else
    match left with
    | 0 => .error .tooManyProtocols
    | left + 1 =>
      match UnsignedVarint.decodeUsize remaining with
      | .error error => .error (.ioError (.invalidData error.message))
      | .ok (len, tail) =>
        if len = 0 ∨ tail.length < len ∨ tail[len - 1]? ≠ some lineFeed then .error .invalidMessage
        else
          match Protocol.tryFromBytes (tail.take (len - 1)) with
          | .error error => .error error
          | .ok proto => (decodeProtocols left (tail.drop len)).map (proto :: ·)

def decode (msg : List UInt8) : Except ProtocolError Message :=
  if msg = msgMultistream then .ok (.header .v1)
  else if msg = msgProtocolNa then .ok .notAvailable
  else if msg = msgLs then .ok .listProtocols
  else if msg.head? = some slash ∧ msg.getLast? = some lineFeed ∧ lineFeed ∉ msg.dropLast then
    (Protocol.tryFromBytes msg.dropLast).map .protocol
  else (decodeProtocols maxProtocols msg).map .protocols

end Message

open Message

/-- A name that can be negotiated. -/
structure ValidName (name : String) : Prop where
  slash : (utf8Bytes name).head? = some slash
  oneLine : lineFeed ∉ utf8Bytes name
  notHeader : name ≠ "/multistream/1.0.0"
  length : (utf8Bytes name).length ≤ 16381

instance (name : String) : Decidable (ValidName name) :=
  decidable_of_iff ((utf8Bytes name).head? = some slash ∧ lineFeed ∉ utf8Bytes name ∧ name ≠ "/multistream/1.0.0" ∧
      (utf8Bytes name).length ≤ 16381)
    ⟨fun h => ⟨h.1, h.2.1, h.2.2.1, h.2.2.2⟩, fun h => ⟨h.slash, h.oneLine, h.notHeader, h.length⟩⟩

def ValidName.toProtocol {name : String} (hname : ValidName name) : Protocol := ⟨name, hname.slash⟩

section

variable [UnsignedVarint] {proto : Protocol}

namespace Message

/-- A message that arrives as it was sent. -/
def Sendable (message : Message) : Prop := Fits message.encode ∧ decode message.encode = .ok message

theorem sendable_header : Sendable (.header .v1) :=
  ⟨(by decide +kernel : LengthDelimited.Fits msgMultistream), if_pos rfl⟩

theorem length_wire_header : (wire [encode (.header .v1)]).length < maxFrameSize := by
  have hm : msgMultistream.length = 19 := by decide +kernel
  have hlen := UnsignedVarint.encodeU16_length (show 19 < 2 ^ 14 by decide)
  simp only [wire, flatMap_cons, flatMap_nil, append_nil, frame, length_append, encode, hm, maxFrameSize]
  omega

theorem sendable_notAvailable : Sendable .notAvailable := by
  refine ⟨(by decide +kernel : LengthDelimited.Fits msgProtocolNa), ?_⟩
  show decode msgProtocolNa = _
  rw [decode, if_neg (by decide +kernel), if_pos rfl]

theorem decode_encode_protocol (honL : lineFeed ∉ utf8Bytes proto.name)
    (hnoH : proto.name ≠ "/multistream/1.0.0") : decode (encode (.protocol proto)) = .ok (.protocol proto) := by
  obtain ⟨bytes, hb⟩ : ∃ bytes, utf8Bytes proto.name = slash :: bytes := by
    have hs := proto.startsWithSlash
    cases hu : utf8Bytes proto.name with
    | nil =>
      rw [hu] at hs
      cases hs
    | cons first bytes =>
      rw [hu] at hs
      exact ⟨bytes, by rw [Option.some.inj hs]⟩
  have hh : utf8Bytes proto.name ++ [lineFeed] ≠ msgMultistream := by
    intro heq
    have hsp : msgMultistream = utf8Bytes "/multistream/1.0.0" ++ [lineFeed] := by decide +kernel
    rw [hsp] at heq
    exact hnoH (utf8Bytes_injective (append_cancel_right heq))
  have hf : ∀ {first rest}, first ≠ slash → utf8Bytes proto.name ++ [lineFeed] ≠ first :: rest := by
    intro first rest hf heq
    rw [hb] at heq
    exact hf (List.cons.inj heq).1.symm
  have hna : utf8Bytes proto.name ++ [lineFeed] ≠ msgProtocolNa := by
    have hc : msgProtocolNa = 0x6e :: [0x61, lineFeed] := by decide +kernel
    rw [hc]
    exact hf (by decide)
  have hls : utf8Bytes proto.name ++ [lineFeed] ≠ msgLs := by
    have hc : msgLs = 0x6c :: [0x73, lineFeed] := by decide +kernel
    rw [hc]
    exact hf (by decide)
  show decode (utf8Bytes proto.name ++ [lineFeed]) = _
  unfold decode
  rw [if_neg hh, if_neg hna, if_neg hls, if_pos, dropLast_concat, Protocol.tryFromBytes_utf8Bytes]
  · rfl
  · refine ⟨by rw [hb]; rfl, getLast?_concat, ?_⟩
    rw [dropLast_concat]
    exact honL

theorem sendable_protocol (hn : ValidName proto.name) : Sendable (.protocol proto) := by
  refine ⟨⟨?_, ?_⟩, decode_encode_protocol hn.oneLine hn.notHeader⟩
  · simp [encode]
  · have hlen := hn.length
    simp only [encode, length_append, length_cons, length_nil, maxFrameSize]
    omega

end Message

section

variable (io : LengthDelimited) (port : Port)

def pollStream : Poll (Option (Except ProtocolError Message)) × LengthDelimited × Port :=
  match io.pollNext port with
  | (.pending, io, port) => (.pending, io, port)
  | (.ready none, io, port) => (.ready none, io, port)
  | (.ready (some (.error error)), io, port) => (.ready (some (.error (.ioError error))), io, port)
  | (.ready (some (.ok msg)), io, port) => (.ready (some (decode msg)), io, port)

def startSend (message : Message) : Except ProtocolError LengthDelimited :=
  (io.startSend message.encode).mapError .ioError

theorem pollStream_reads : Reads io port (pollStream io port) := by
  have hr := io.pollNext_reads port
  unfold pollStream
  generalize io.pollNext port = output at hr ⊢
  cases hr with
  | idle ha hs => exact .idle ha hs
  | partly ht => exact .partly ht
  | ended hf hb hsu ha hre =>
    rename_i res io' port'
    match res with
    | none | some (.error error) => exact .ended hf hb hsu ha nofun
    | some (.ok item) => exact absurd rfl (hre item)
  | item ht =>
    rename_i item io' port'
    dsimp only
    cases decode item with
    | ok => exact .item ht
    | error => exact .ended ht.port_eq ht.writeBuffer ht.suffix ht.answers nofun

theorem pollStream_passed : (pollStream io port).2.2.passed = port.passed := by
  have hr := pollStream_reads io port
  generalize pollStream io port = output at hr ⊢
  cases hr with
  | idle => rfl
  | partly ht | item ht => rw [ht.port_eq]
  | ended hp => rw [hp]

end

/-- What a poll gives to a reader to whom `messages` are on their way. -/
inductive Receives (io : LengthDelimited) (port : Port) (future extra : List UInt8) (messages : List Message) :
    Poll (Option (Except ProtocolError Message)) × LengthDelimited × Port → Prop
  | pending {io' port'} (hport : port' = { port with incoming := port'.incoming, answers := port'.answers })
      (hwrite : io'.writeBuffer = io.writeBuffer)
      (hframe : InFrame io' (port'.incoming ++ future) extra (messages.map encode)) :
      Receives io port future extra messages (.pending, io', port')
  | message {message messages' io' port'}
      (hport : port' = { port with incoming := port'.incoming, answers := port'.answers })
      (hwrite : io'.writeBuffer = io.writeBuffer) (hmessages : messages = message :: messages')
      (hframe : InFrame io' (port'.incoming ++ future) extra (messages'.map encode))
      (hbuffer : io'.readBuffer = []) :
      Receives io port future extra messages (.ready (some (.ok message)), io', port')
  | ended {io' port'} (hport : port' = { port with incoming := port'.incoming, answers := port'.answers })
      (hrest : port'.incoming ++ future = extra) (hmessages : messages = [])
      (hdropped : port.remoteDropped = true) :
      Receives io port future extra messages (.ready none, io', port')

theorem pollStream_receives {io : LengthDelimited} {port : Port} {fut extra : List UInt8} {msgs : List Message}
    (hf : InFrame io (port.incoming ++ fut) extra (msgs.map encode))
    (hm : ∀ msg ∈ msgs, msg.Sendable) (he : msgs = [] → extra = [])
    (hfu : port.remoteDropped → fut = []) :
    Receives io port fut extra msgs (pollStream io port) := by
  have hfi : ∀ item ∈ msgs.map encode, Fits item := by
    intro item hi
    obtain ⟨msg, hme, rfl⟩ := mem_map.1 hi
    exact (hm msg hme).1
  have hd := pollNext_decodes hf hfi (fun hem => he (map_eq_nil_iff.1 hem)) hfu
  have hr := io.pollNext_reads port
  unfold pollStream
  generalize io.pollNext port = output at hd hr ⊢
  cases hd with
  | pending hf =>
    cases hr with
    | idle => exact .pending rfl rfl hf
    | partly ht => exact .pending ht.port_eq ht.writeBuffer hf
  | ended hit hdr =>
    cases hr with
    | ended hp hw hs =>
      obtain rfl := map_eq_nil_iff.1 hit
      have hre : port.incoming ++ fut = extra := by
        cases hf with
        | done hst hb hre => exact hre
      obtain ⟨_, hta⟩ := hs
      have hem := hre.trans (he rfl)
      rw [hta, append_assoc, append_eq_nil_iff] at hem
      exact .ended hp (hem.2.trans (he rfl).symm) rfl hdr
  | item hit hf hb =>
    cases hr with
    | ended hp hw hs ha hrs => exact absurd rfl (hrs _)
    | item ht =>
      obtain ⟨msg, _, rfl, rfl, rfl⟩ := map_eq_cons_iff.1 hit
      dsimp only
      rw [(hm msg mem_cons_self).2]
      exact .message ht.port_eq ht.writeBuffer rfl hf hb

theorem startSend_of_sendable (io : LengthDelimited) {msg : Message} (hm : msg.Sendable) :
    startSend io msg = .ok { io with writeBuffer := io.writeBuffer ++ wire [msg.encode] } := by
  unfold startSend LengthDelimited.startSend
  rw [if_pos hm.1.2]
  simp [Except.mapError, wire]

/-! The message codec of multistream-select in both directions. The messages carry no tag: the header, the two
commands, a single name and a list of names are told apart by their bytes alone. -/
open UnsignedVarint Protocol

namespace Message

def names : Message → List Protocol
  | .protocol proto => [proto]
  | .protocols protos => protos
  | _ => []

/-- What the codec is for: the names of the message hold no line feed and are not the header's, and there are
at most as many of them as a receiver takes. No string in memory is longer than `isize::MAX` bytes. -/
structure Encodable (message : Message) : Prop where
  oneLine : ∀ proto ∈ message.names, lineFeed ∉ utf8Bytes proto.name
  notHeader : ∀ proto ∈ message.names, proto.name ≠ "/multistream/1.0.0"
  inMemory : ∀ proto ∈ message.names, (utf8Bytes proto.name).length < 2 ^ 63
  count : message.names.length ≤ maxProtocols

def entry (proto : Protocol) : List UInt8 :=
  encodeUsize ((utf8Bytes proto.name).length + 1) ++ utf8Bytes proto.name ++ [lineFeed]

theorem encode_protocols (protos : List Protocol) :
    encode (.protocols protos) = protos.flatMap entry ++ [lineFeed] := rfl

/-- On the way of the decoder through a list of names, each length is written as the encoder writes it. -/
def canonicalLengths : Nat → List UInt8 → Bool
  | 0, _ => true
  | left + 1, remaining =>
    if remaining = [lineFeed] then true
    else
      match decodeUsize remaining with
      | .error _ => true
      | .ok (len, tail) =>
        decide (remaining = encodeUsize len ++ tail) &&
          if len = 0 ∨ tail.length < len ∨ tail[len - 1]? ≠ some lineFeed then true
          else canonicalLengths left (tail.drop len)

end Message

variable {bytes : List UInt8}

namespace Protocol

omit [UnsignedVarint] in
theorem utf8Bytes_of_tryFromBytes
    (hr : tryFromBytes bytes = .ok proto) : utf8Bytes proto.name = bytes := by
  unfold tryFromBytes at hr
  split at hr
  · cases ht : fromUtf8 bytes with
    | none => simp [ht] at hr
    | some =>
      rw [ht] at hr
      dsimp only at hr
      unfold tryFromStr at hr
      split at hr
      · cases hr
        exact utf8Bytes_of_fromUtf8 ht
      · cases hr
  · cases hr

end Protocol

namespace Message

theorem entry_append (proto : Protocol) (rest : List UInt8) :
    entry proto ++ rest = encodeUsize ((utf8Bytes proto.name).length + 1) ++
      (utf8Bytes proto.name ++ lineFeed :: rest) := by
  simp [entry]

omit [UnsignedVarint] in
theorem entry_checks (name rest : List UInt8) :
    ¬ (name.length + 1 = 0 ∨ (name ++ lineFeed :: rest).length < name.length + 1 ∨
      (name ++ lineFeed :: rest)[name.length + 1 - 1]? ≠ some lineFeed) := by
  simp

omit [UnsignedVarint] in
theorem drop_entry (name rest : List UInt8) : (name ++ lineFeed :: rest).drop (name.length + 1) = rest := by
  rw [← drop_drop, drop_left, drop_one, tail_cons]

section Entry

variable {proto : Protocol} {remaining rest : List UInt8}
  (hleg : decodeUsize remaining = .ok ((utf8Bytes proto.name).length + 1, utf8Bytes proto.name ++ lineFeed :: rest))
  (hmore : remaining ≠ [lineFeed])

include hleg hmore

theorem decodeProtocols_entry (left : Nat) :
    decodeProtocols (left + 1) remaining = (decodeProtocols left rest).map (proto :: ·) := by
  have hn : (utf8Bytes proto.name ++ lineFeed :: rest).take ((utf8Bytes proto.name).length + 1 - 1) =
      utf8Bytes proto.name := by simp
  rw [decodeProtocols, if_neg hmore, hleg]
  dsimp only
  rw [if_neg (entry_checks _ _), hn, drop_entry, tryFromBytes_utf8Bytes]

theorem canonicalLengths_entry (left : Nat) : canonicalLengths (left + 1) remaining =
      (decide (remaining = encodeUsize ((utf8Bytes proto.name).length + 1) ++
        (utf8Bytes proto.name ++ lineFeed :: rest)) && canonicalLengths left rest) := by
  rw [canonicalLengths, if_neg hmore, hleg]
  dsimp only
  rw [if_neg (entry_checks _ _), drop_entry]

end Entry

variable {left : Nat} {remaining : List UInt8} {protos : List Protocol} {message : Message}

theorem decodeProtocols_ok (hr : decodeProtocols left remaining = .ok protos) : (remaining = [lineFeed] ∧ protos = []) ∨
    ∃ left' proto protos' rest, left = left' + 1 ∧ protos = proto :: protos' ∧ remaining ≠ [lineFeed] ∧
      decodeUsize remaining = .ok ((utf8Bytes proto.name).length + 1, utf8Bytes proto.name ++ lineFeed :: rest) ∧
      decodeProtocols left' rest = .ok protos' := by
  by_cases he : remaining = [lineFeed]
  · rw [decodeProtocols.eq_def, if_pos he] at hr
    cases hr
    exact Or.inl ⟨he, rfl⟩
  right
  cases left with
  | zero =>
    rw [decodeProtocols, if_neg he] at hr
    cases hr
  | succ left =>
    rw [decodeProtocols, if_neg he] at hr
    cases hleg : decodeUsize remaining with
    | error =>
      rw [hleg] at hr
      cases hr
    | ok out =>
      obtain ⟨len, tail⟩ := out
      rw [hleg] at hr
      dsimp only at hr
      split at hr
      · cases hr
      rename_i hc
      push Not at hc
      obtain ⟨_, _, hl⟩ := hc
      cases hn : tryFromBytes (tail.take (len - 1)) with
      | error =>
        rw [hn] at hr
        cases hr
      | ok proto =>
        rw [hn] at hr
        cases hre : decodeProtocols left (tail.drop len) with
        | error =>
          rw [hre] at hr
          cases hr
        | ok protos' =>
          rw [hre] at hr
          cases hr
          have hb := utf8Bytes_of_tryFromBytes hn
          have hlen : (utf8Bytes proto.name).length + 1 = len := by
            rw [hb, length_take]
            omega
          have ht : tail = utf8Bytes proto.name ++ lineFeed :: tail.drop len := by
            obtain ⟨hle, hg⟩ := List.getElem?_eq_some_iff.1 hl
            calc tail = tail.take (len - 1) ++ tail.drop (len - 1) := (take_append_drop _ _).symm
              _ = utf8Bytes proto.name ++ lineFeed :: tail.drop len := by
                  rw [hb, drop_eq_getElem_cons hle, hg, Nat.sub_add_cancel (by omega)]
          exact ⟨left, proto, protos', tail.drop len, rfl, rfl, he, by rw [hlen, ← ht], hre⟩

theorem entry_append_ne (proto : Protocol) (rest : List UInt8) : entry proto ++ rest ≠ [lineFeed] := by
  intro heq
  have hleg := congrArg List.length heq
  have hn : 0 < (utf8Bytes proto.name).length := by
    rw [length_pos_iff]
    intro he
    have hs := proto.startsWithSlash
    simp [he] at hs
  simp [entry] at hleg
  omega

theorem decodeUsize_entry (hmem : (utf8Bytes proto.name).length < 2 ^ 63) (rest : List UInt8) :
    decodeUsize (entry proto ++ rest) =
      .ok ((utf8Bytes proto.name).length + 1, utf8Bytes proto.name ++ lineFeed :: rest) := by
  rw [entry_append, decodeUsize_encodeUsize (by omega)]

theorem decodeProtocols_encode (hc : protos.length ≤ left)
    (hmem : ∀ proto ∈ protos, (utf8Bytes proto.name).length < 2 ^ 63) :
    decodeProtocols left (encode (.protocols protos)) = .ok protos := by
  induction protos generalizing left with
  | nil =>
    rw [decodeProtocols.eq_def]
    exact if_pos rfl
  | cons proto protos ih =>
    obtain ⟨left, rfl⟩ : ∃ n, left = n + 1 := ⟨left - 1, by simp at hc; omega⟩
    have hr : decodeProtocols left (encode (.protocols protos)) = .ok protos :=
      ih (by simpa using hc) fun other ho => hmem other (mem_cons_of_mem _ ho)
    rw [encode_protocols, flatMap_cons, append_assoc,
      decodeProtocols_entry (decodeUsize_entry (hmem proto mem_cons_self) _) (entry_append_ne _ _) left,
      ← encode_protocols, hr]
    rfl

theorem encode_protocols_cons (proto : Protocol) (protos : List Protocol) :
    encode (.protocols (proto :: protos)) = encodeUsize ((utf8Bytes proto.name).length + 1) ++
      (utf8Bytes proto.name ++ lineFeed :: encode (.protocols protos)) := by
  rw [← entry_append, encode_protocols, encode_protocols, flatMap_cons, append_assoc]

theorem encode_protocols_eq_iff (hr : decodeProtocols left remaining = .ok protos) (hmem : remaining.length < 2 ^ 63) :
    encode (.protocols protos) = remaining ↔ canonicalLengths left remaining := by
  induction left generalizing remaining protos with
  | zero =>
    rcases decodeProtocols_ok hr with ⟨rfl, rfl⟩ | ⟨left', _, _, _, hl, _⟩
    · exact iff_of_true rfl rfl
    · omega
  | succ left ih =>
    rcases decodeProtocols_ok hr with ⟨rfl, rfl⟩ | ⟨left', proto, protos', rest, hl, rfl, hmore, hleg, hre⟩
    · exact iff_of_true rfl (if_pos rfl)
    obtain rfl : left = left' := by omega
    rw [canonicalLengths_entry hleg hmore, Bool.and_eq_true, decide_eq_true_iff, encode_protocols_cons]
    -- in either direction the rest is a part of the bytes, so that the hypothesis applies to it
    constructor
    · intro hs
      have hlen := congrArg List.length hs
      simp only [length_append, length_cons] at hlen
      have hra : (utf8Bytes proto.name).length + 1 < 2 ^ 64 := by omega
      have ha := decodeUsize_encodeUsize hra (utf8Bytes proto.name ++ lineFeed :: encode (.protocols protos'))
      rw [hs, hleg] at ha
      have hta := congrArg Prod.snd (Except.ok.inj ha)
      have hrs : rest = encode (.protocols protos') := (List.cons.inj (append_cancel_left hta)).2
      refine ⟨by rw [← hs, hrs], (ih hre ?_).1 hrs.symm⟩
      rw [hrs]
      omega
    · rintro ⟨hc, hn⟩
      have hlen := congrArg List.length hc
      simp only [length_append, length_cons] at hlen
      rw [(ih hre (by omega)).2 hn, ← hc]

theorem decode_of_lineFeed_mem {msg : List UInt8} (hm : lineFeed ∈ msg.dropLast) :
    decode msg = (decodeProtocols maxProtocols msg).map .protocols := by
  have hc : ∀ {constant : List UInt8}, lineFeed ∉ constant.dropLast → msg ≠ constant := by
    rintro constant hn rfl
    exact hn hm
  rw [decode, if_neg (hc (by decide +kernel)), if_neg (hc (by decide +kernel)),
    if_neg (hc (by decide +kernel)), if_neg (fun hna => hna.2.2 hm)]

theorem decode_encode (hm : message.Encodable) : decode (encode message) = .ok message := by
  cases message with
  | header line =>
    cases line
    exact sendable_header.2
  | listProtocols =>
    show decode msgLs = _
    rw [decode, if_neg (by decide +kernel), if_neg (by decide +kernel), if_pos rfl]
  | notAvailable => exact sendable_notAvailable.2
  | protocol proto =>
    exact decode_encode_protocol (hm.oneLine proto mem_cons_self) (hm.notHeader proto mem_cons_self)
  | protocols protos =>
    have hl : decodeProtocols maxProtocols (encode (.protocols protos)) = .ok protos :=
      decodeProtocols_encode hm.count hm.inMemory
    cases protos with
    | nil =>
      have hd : ∀ {msg : List UInt8}, msg = [lineFeed] →
          decode msg = (decodeProtocols maxProtocols msg).map .protocols := by
        rintro _ rfl
        rw [decode, if_neg (by decide +kernel), if_neg (by decide +kernel), if_neg (by decide +kernel),
          if_neg (by decide +kernel)]
      rw [hd (show encode (.protocols []) = [lineFeed] from rfl), hl]
      rfl
    | cons proto protos =>
      have hmi : lineFeed ∈ (encode (.protocols (proto :: protos))).dropLast := by
        rw [encode_protocols, dropLast_concat, flatMap_cons, entry]
        simp
      rw [decode_of_lineFeed_mem hmi, hl]
      rfl

theorem encode_eq_iff (hr : decode bytes = .ok message)
    (hmem : bytes.length < 2 ^ 63) : encode message = bytes ↔
      ∀ protos, message = .protocols protos → canonicalLengths maxProtocols bytes := by
  rw [decode] at hr
  by_cases hh : bytes = msgMultistream
  · rw [if_pos hh] at hr
    cases hr
    subst hh
    exact iff_of_true rfl nofun
  rw [if_neg hh] at hr
  by_cases hna : bytes = msgProtocolNa
  · rw [if_pos hna] at hr
    cases hr
    subst hna
    exact iff_of_true rfl nofun
  rw [if_neg hna] at hr
  by_cases hls : bytes = msgLs
  · rw [if_pos hls] at hr
    cases hr
    subst hls
    exact iff_of_true rfl nofun
  rw [if_neg hls] at hr
  by_cases hn : bytes.head? = some slash ∧ bytes.getLast? = some lineFeed ∧ lineFeed ∉ bytes.dropLast
  · rw [if_pos hn] at hr
    obtain ⟨_, hl, -⟩ := hn
    have hs : bytes = bytes.dropLast ++ [lineFeed] := by
      obtain ⟨_, hf⟩ := getLast?_eq_some_iff.1 hl
      rw [hf, dropLast_concat]
    cases hp : tryFromBytes bytes.dropLast with
    | error =>
      rw [hp] at hr
      cases hr
    | ok proto =>
      rw [hp] at hr
      cases hr
      have hb := utf8Bytes_of_tryFromBytes hp
      have he : encode (.protocol proto) = bytes := by rw [encode, hb, ← hs]
      exact iff_of_true he nofun
  · rw [if_neg hn] at hr
    cases hlt : decodeProtocols maxProtocols bytes with
    | error =>
      rw [hlt] at hr
      cases hr
    | ok protos =>
      rw [hlt] at hr
      cases hr
      rw [encode_protocols_eq_iff hlt hmem]
      exact ⟨fun hc _ _ => hc, fun hc => hc protos rfl⟩

/-- The codec is inverse to itself in both directions: every message it is for is read back from its encoding,
and an accepted byte string is the encoding of what was read from it if and only if, in a list, each length is
written as the encoder writes it. -/
theorem codec_inverse (message : Message) : (message.Encodable → decode (encode message) = .ok message) ∧
    ∀ bytes : List UInt8, bytes.length < 2 ^ 63 → decode bytes = .ok message →
      (encode message = bytes ↔
        ∀ protos, message = .protocols protos → canonicalLengths maxProtocols bytes = true) := by
  constructor
  · exact decode_encode
  · intro _ hmem hr
    exact encode_eq_iff hr hmem

end Message
end

namespace Message

def slashName : Protocol := ⟨"/", by decide +kernel⟩

theorem codec_inverse_slashName : decode (encode (.protocols [slashName])) = .ok (.protocols [slashName]) ∧
    encode (.protocols [slashName]) = [0x02, 0x2f, 0x0a, 0x0a] := by
  constructor
  · apply (codec_inverse _).1
    exact ⟨by decide +kernel, by decide +kernel, by decide +kernel, by decide +kernel⟩
  · refine ((codec_inverse _).2 _ (by decide) (by decide +kernel)).2 fun _ _ => ?_
    decide +kernel

/-- The list with the one name `/`, whose length two is written with ten bytes: the last of them adds the
sixty-fifth bit. -/
def longLength : List UInt8 := [0x82, 0x80, 0x80, 0x80, 0x80, 0x80, 0x80, 0x80, 0x80, 0x02, 0x2f, 0x0a, 0x0a]

theorem not_canonical_longLength :
    decode longLength = .ok (.protocols [slashName]) ∧ encode (.protocols [slashName]) ≠ longLength := by
  decide +kernel

end Message
end RustLibp2p.Multistream
