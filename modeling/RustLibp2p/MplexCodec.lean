import RustLibp2p.Varint

/-! Substream identifiers and frames of the mplex multiplexer. Each side numbers the substreams it opens and
remembers its own role in them; what the remote calls a dialer is a listener here. -/

namespace RustLibp2p.Mplex

inductive Endpoint where
  | dialer
  | listener
  deriving DecidableEq

def Endpoint.not : Endpoint → Endpoint
  | .dialer => .listener
  | .listener => .dialer

structure LocalStreamId where
  num : Nat
  role : Endpoint
  deriving DecidableEq

namespace LocalStreamId

def code (id : LocalStreamId) : Nat :=
  match id.role with
  | .dialer => 2 * id.num
  | .listener => 2 * id.num + 1

theorem code_injective : Function.Injective code := by
  rintro ⟨_, role⟩ ⟨_, role'⟩ heq
  cases role <;> cases role' <;> simp [code] at heq ⊢ <;> omega

/-- Any order serves for the keys of a map. -/
instance : LinearOrder LocalStreamId := LinearOrder.lift' code code_injective

def dialer (num : Nat) : LocalStreamId := ⟨num, .dialer⟩

/-- Numbers have 64 bits. -/
def next (id : LocalStreamId) : Option LocalStreamId :=
  if id.num + 1 < 2 ^ 64 then some { id with num := id.num + 1 } else none

end LocalStreamId

structure RemoteStreamId where
  num : Nat
  role : Endpoint
  deriving DecidableEq

def RemoteStreamId.intoLocal (id : RemoteStreamId) : LocalStreamId := ⟨id.num, id.role.not⟩

inductive Frame (T : Type) where
  | opened (streamId : T)
  | data (streamId : T) (payload : List UInt8)
  | close (streamId : T)
  | reset (streamId : T)
  deriving DecidableEq

namespace Frame

def intoLocal : Frame RemoteStreamId → Frame LocalStreamId
  | .opened id => .opened id.intoLocal
  | .data id payload => .data id.intoLocal payload
  | .close id => .close id.intoLocal
  | .reset id => .reset id.intoLocal

/-- On the wire an `Open` frame carries no role: the decoder takes its sender for the dialer. -/
def opensAsDialer : Frame RemoteStreamId → Bool
  | .opened id => id.role = .dialer
  | _ => true

end Frame

structure RemoteFrame where
  frame : Frame RemoteStreamId
  opensAsDialer : frame.opensAsDialer

/-! The mplex codec. The decoder keeps how far it has come in a frame when the buffer ends within it, so
that a frame can arrive in any pieces. Of the two roles in a substream the flag says which one the sender
has. -/
open UnsignedVarint List Mplex.Frame

def maxFrameSize : Nat := 1024 * 1024

inductive CodecError where
  | varint (error : Varint.Error)
  | frameLength (len : Nat)
  | invalidHeader (header : Nat)
  | poisoned
  | dataSize
  deriving DecidableEq

def CodecError.message : CodecError → String
  | .varint error => error.message
  | .frameLength len => s!"Mplex frame length {len} exceeds maximum"
  | .invalidHeader header => "Invalid mplex header value 0x" ++ String.ofList (Nat.toDigits 16 header)
  | .poisoned => "Mplex codec poisoned"
  | .dataSize => "data size exceed maximum"

inductive CodecDecodeState where
  | begin
  | hasHeader (header : Nat)
  | hasHeaderAndLen (header len : Nat)
  | poisoned
  deriving DecidableEq

/-- What a call of the decoder gives, and what it leaves in the codec and in the buffer. -/
abbrev Decoded := Except CodecError (Option (Frame RemoteStreamId)) × CodecDecodeState × List UInt8

namespace Codec

variable [UnsignedVarint]

/-- `Uvi::decode`, which waits for more bytes when a number is not yet there as a whole. -/
def decodeVarint (src : List UInt8) : Except CodecError (Option (Nat × List UInt8)) :=
  match decodeU64 src with
  | .ok output => .ok (some output)
  | .error .insufficient => .ok none
  | .error error => .error (.varint error)

def frameOf (header : Nat) (buf : List UInt8) : Option (Frame RemoteStreamId) :=
  let num := header / 8
  match header % 8 with
  | 0 => some (.opened ⟨num, .dialer⟩)
  | 1 => some (.data ⟨num, .listener⟩ buf)
  | 2 => some (.data ⟨num, .dialer⟩ buf)
  | 3 => some (.close ⟨num, .listener⟩)
  | 4 => some (.close ⟨num, .dialer⟩)
  | 5 => some (.reset ⟨num, .listener⟩)
  | 6 => some (.reset ⟨num, .dialer⟩)
  | _ => none

def decodePayload (header len : Nat) (src : List UInt8) : Decoded :=
  if src.length < len then (.ok none, .hasHeaderAndLen header len, src)
  else
    match frameOf header (src.take len) with
    | some frame => (.ok (some frame), .begin, src.drop len)
    | none => (.error (.invalidHeader header), .poisoned, src.drop len)

section

variable (bits : Nat)

/-- On a target whose pointers have `bits` bits, the length is cut down to `usize` and compared then. -/
def decodeLen (header : Nat) (src : List UInt8) : Decoded :=
  match decodeVarint src with
  | .error error => (.error error, .poisoned, src)
  | .ok none => (.ok none, .hasHeader header, src)
  | .ok (some (len, rest)) =>
    if maxFrameSize < len % 2 ^ bits then (.error (.frameLength len), .poisoned, rest)
    else decodePayload header (len % 2 ^ bits) rest

def decodeHeader (src : List UInt8) : Decoded :=
  match decodeVarint src with
  | .error error => (.error error, .poisoned, src)
  | .ok none => (.ok none, .begin, src)
  | .ok (some (header, rest)) => decodeLen bits header rest

/-- The loop of the source goes through the phases in this order and returns in the last one at the latest. -/
def decode (state : CodecDecodeState) (src : List UInt8) : Decoded :=
  match state with
  | .begin => decodeHeader bits src
  | .hasHeader header => decodeLen bits header src
  | .hasHeaderAndLen header len => decodePayload header len src
  | .poisoned => (.error .poisoned, .poisoned, src)

end

/-- The flag, which is or-ed to the number shifted by three bits, and the payload of a frame. -/
def flagAndData : Frame LocalStreamId → Nat × List UInt8
  | .opened _ => (0, [])
  | .data ⟨_, .listener⟩ payload => (1, payload)
  | .data ⟨_, .dialer⟩ payload => (2, payload)
  | .close ⟨_, .listener⟩ => (3, [])
  | .close ⟨_, .dialer⟩ => (4, [])
  | .reset ⟨_, .listener⟩ => (5, [])
  | .reset ⟨_, .dialer⟩ => (6, [])

end Codec

def Frame.streamId {T : Type} : Frame T → T
  | .opened id | .data id _ | .close id | .reset id => id

variable {frame : Frame LocalStreamId}

namespace Codec

def header (frame : Frame LocalStreamId) : Nat := frame.streamId.num * 8 % 2 ^ 64 + (flagAndData frame).1

structure Encodable (frame : Frame LocalStreamId) : Prop where
  num : frame.streamId.num < 2 ^ 61
  payload : (flagAndData frame).2.length ≤ maxFrameSize

/-- What the remote makes of a frame. An `Open` frame says nothing of the role, its sender is taken for the
dialer. -/
def received : Frame LocalStreamId → Frame RemoteStreamId
  | .opened id => .opened ⟨id.num, .dialer⟩
  | .data id payload => .data ⟨id.num, id.role⟩ payload
  | .close id => .close ⟨id.num, id.role⟩
  | .reset id => .reset ⟨id.num, id.role⟩

theorem flag_lt (frame : Frame LocalStreamId) : (flagAndData frame).1 < 7 := by
  rcases frame with id | ⟨⟨num, role⟩, payload⟩ | ⟨num, role⟩ | ⟨num, role⟩ <;>
    first | (cases role <;> simp [flagAndData]) | simp [flagAndData]

section

variable (hframe : Encodable frame)
include hframe

theorem header_eq : header frame = frame.streamId.num * 8 + (flagAndData frame).1 := by
  have hn := hframe.num
  rw [header, Nat.mod_eq_of_lt (by omega)]

theorem header_lt : header frame < 2 ^ 64 := by
  have hn := hframe.num
  have hf := flag_lt frame
  rw [header_eq hframe]
  omega

theorem frameOf_header : frameOf (header frame) (flagAndData frame).2 = some (received frame) := by
  have hf := flag_lt frame
  have hn : header frame / 8 = frame.streamId.num := by
    rw [header_eq hframe]
    omega
  have hm : header frame % 8 = (flagAndData frame).1 := by
    rw [header_eq hframe]
    omega
  rw [frameOf, hn, hm]
  rcases frame with id | ⟨⟨num, role⟩, payload⟩ | ⟨num, role⟩ | ⟨num, role⟩ <;> first | (cases role <;> rfl) | rfl

end

variable [UnsignedVarint]

def encode (frame : Frame LocalStreamId) : Except CodecError (List UInt8) :=
  let data := (flagAndData frame).2
  if maxFrameSize < data.length then .error .dataSize
  else .ok (encodeU64 (header frame) ++ encodeUsize data.length ++ data)

section

variable (bits : Nat)

/-- Every frame that the buffer holds, as whoever reads from the connection takes them one by one. The fuel
bounds their number. -/
def drain : Nat → CodecDecodeState → List UInt8 →
    Except CodecError (List (Frame RemoteStreamId) × CodecDecodeState × List UInt8)
  | 0, state, src => .ok ([], state, src)
  | fuel + 1, state, src =>
    match decode bits state src with
    | (.error error, _, _) => .error error
    | (.ok none, state, src) => .ok ([], state, src)
    | (.ok (some frame), state, src) => (drain fuel state src).map fun output => (frame :: output.1, output.2)

/-- Pieces of the incoming bytes, each added to what the buffer still holds. -/
def feed : CodecDecodeState → List UInt8 → List (List UInt8) →
    Except CodecError (List (Frame RemoteStreamId) × CodecDecodeState × List UInt8)
  | state, src, [] => .ok ([], state, src)
  | state, src, chunk :: chunks =>
    match drain bits ((src ++ chunk).length + 1) state (src ++ chunk) with
    | .error error => .error error
    | .ok (frames, state, src) => (feed state src chunks).map fun output => (frames ++ output.1, output.2)

end

def wire (frame : Frame LocalStreamId) : List UInt8 :=
  encodeU64 (header frame) ++ encodeUsize (flagAndData frame).2.length ++ (flagAndData frame).2

theorem encode_of_encodable (hframe : Encodable frame) :
    encode frame = .ok (wire frame) := if_neg (Nat.not_lt.2 hframe.payload)

/-- The decoder has taken these bytes of a frame. -/
inductive Within (frame : Frame LocalStreamId) : CodecDecodeState → List UInt8 → Prop
  | begin : Within frame .begin []
  | hasHeader : Within frame (.hasHeader (header frame)) (encodeU64 (header frame))
  | hasHeaderAndLen : Within frame (.hasHeaderAndLen (header frame) (flagAndData frame).2.length)
      (encodeU64 (header frame) ++ encodeUsize (flagAndData frame).2.length)

/-- The frame was there as a whole in what had arrived, or the decoder waits for the rest of it. -/
inductive Advances (frame : Frame LocalStreamId) (arrived : List UInt8) : Decoded → Prop
  | whole {src : List UInt8} (harrived : arrived = wire frame ++ src) :
      Advances frame arrived (.ok (some (received frame)), .begin, src)
  | part {state : CodecDecodeState} {taken src : List UInt8} (hwithin : Within frame state taken)
      (harrived : arrived = taken ++ src) (hshort : arrived.length < (wire frame).length) :
      Advances frame arrived (.ok none, state, src)

theorem decodeVarint_arrived {v : Nat} (hv : v < 2 ^ 64) {src future rest : List UInt8}
    (hb : src ++ future = encodeU64 v ++ rest) :
    (∃ src', src = encodeU64 v ++ src' ∧ src' ++ future = rest ∧ decodeVarint src = .ok (some (v, src'))) ∨
    (decodeVarint src = .ok none ∧ src.length < (encodeU64 v).length) := by
  rcases decodeU64_arrived hv hb with ⟨src', rfl, hr⟩ | ⟨hread, hs⟩
  · refine .inl ⟨src', rfl, hr, ?_⟩
    rw [decodeVarint, decodeU64_encodeU64 hv]
  · refine .inr ⟨?_, hs⟩
    rw [decodeVarint, hread]

section Phases

variable (hframe : Encodable frame) {src future rest : List UInt8}

include hframe

theorem decodePayload_advances (hb : src ++ future = (flagAndData frame).2 ++ rest) :
    Advances frame (encodeU64 (header frame) ++ encodeUsize (flagAndData frame).2.length ++ src)
      (decodePayload (header frame) (flagAndData frame).2.length src) := by
  rw [decodePayload]
  by_cases hs : src.length < (flagAndData frame).2.length
  · rw [if_pos hs]
    refine .part .hasHeaderAndLen rfl ?_
    simp only [wire, length_append]
    omega
  · rw [if_neg hs]
    have ht : src.take (flagAndData frame).2.length = (flagAndData frame).2 := by
      have hta := congrArg (List.take (flagAndData frame).2.length) hb
      rwa [take_append_of_le_length (by omega), take_left] at hta
    rw [ht, frameOf_header hframe]
    apply Advances.whole
    rw [wire, append_assoc _ _ (src.drop _)]
    conv => lhs; rw [← take_append_drop (flagAndData frame).2.length src, ht]

variable {bits : Nat} (hbits : maxFrameSize < 2 ^ bits)
include hbits

theorem decodeLen_advances
    (hb : src ++ future = encodeUsize (flagAndData frame).2.length ++ ((flagAndData frame).2 ++ rest)) :
    Advances frame (encodeU64 (header frame) ++ src) (decodeLen bits (header frame) src) := by
  have hs : maxFrameSize < 2 ^ 64 := by decide
  have hp := hframe.payload
  rw [decodeLen]
  rcases decodeVarint_arrived (by omega) hb with ⟨_, rfl, hr, hread⟩ | ⟨hread, _⟩
  · rw [hread]
    dsimp only
    rw [Nat.mod_eq_of_lt (by omega), if_neg (by omega), ← append_assoc]
    exact decodePayload_advances hframe hr
  · rw [hread]
    refine .part .hasHeader rfl ?_
    have hsa : (encodeUsize (flagAndData frame).2.length).length =
      (encodeU64 (flagAndData frame).2.length).length := rfl
    simp only [wire, length_append]
    omega

theorem decodeHeader_advances (hb : src ++ future = wire frame ++ rest) :
    Advances frame src (decodeHeader bits src) := by
  have hs : wire frame ++ rest =
      encodeU64 (header frame) ++ (encodeUsize (flagAndData frame).2.length ++ ((flagAndData frame).2 ++ rest)) := by
    simp [wire]
  rw [hs] at hb
  rw [decodeHeader]
  rcases decodeVarint_arrived (header_lt hframe) hb with ⟨_, rfl, hr, hread⟩ | ⟨hread, _⟩
  · rw [hread]
    exact decodeLen_advances hframe hbits hr
  rw [hread]
  refine .part .begin rfl ?_
  simp only [wire, length_append]
  omega

theorem decode_advances {state : CodecDecodeState} {taken : List UInt8} (hw : Within frame state taken)
    (hb : taken ++ src ++ future = wire frame ++ rest) : Advances frame (taken ++ src) (decode bits state src) := by
  rw [wire] at hb
  cases hw with
  | begin => exact decodeHeader_advances hframe hbits hb
  | hasHeader =>
    have hlen : src ++ future =
        encodeUsize (flagAndData frame).2.length ++ ((flagAndData frame).2 ++ rest) := by simpa using hb
    exact decodeLen_advances hframe hbits hlen
  | hasHeaderAndLen =>
    have hp : src ++ future = (flagAndData frame).2 ++ rest := by simpa using hb
    exact decodePayload_advances hframe hp

end Phases

/-! ### Any number of frames in any pieces -/

theorem wire_ne_nil (frame : Frame LocalStreamId) : wire frame ≠ [] := by simp [wire, encodeU64_ne_nil]

/-- Where the decoder stands while these frames are to come: between two of them, or within the first, which
has not arrived as a whole. -/
inductive Rests : List (Frame LocalStreamId) → CodecDecodeState → List UInt8 → List UInt8 → Prop
  | done : Rests [] .begin [] []
  | within {frame : Frame LocalStreamId} {frames : List (Frame LocalStreamId)} {state : CodecDecodeState}
      {taken src : List UInt8} (hwithin : Within frame state taken)
      (hshort : (taken ++ src).length < (wire frame).length) : Rests (frame :: frames) state taken src

theorem rests_begin (frames : List (Frame LocalStreamId)) : Rests frames .begin [] [] := by
  cases frames with
  | nil => exact .done
  | cons frame => exact .within .begin (length_pos_iff.2 (wire_ne_nil frame))

/-- What was decoded, and what is left for later. -/
structure Drained (frames : List (Frame LocalStreamId)) (arrived : List UInt8)
    (output : List (Frame RemoteStreamId) × CodecDecodeState × List UInt8)
    (whole left : List (Frame LocalStreamId)) (taken : List UInt8) : Prop where
  split : frames = whole ++ left
  decoded : output.1 = whole.map received
  rests : Rests left output.2.1 taken output.2.2
  bytes : arrived = whole.flatMap wire ++ (taken ++ output.2.2)

variable {frames : List (Frame LocalStreamId)} {state : CodecDecodeState} {bits : Nat}

theorem drain_frames {fuel : Nat} {taken src future : List UInt8} (hbits : maxFrameSize < 2 ^ bits)
    (hf : ∀ frame ∈ frames, Encodable frame) (hr : Rests frames state taken [])
    (hb : taken ++ src ++ future = frames.flatMap wire) (hfu : src.length < fuel) :
    ∃ output whole left taken', drain bits fuel state src = .ok output ∧
      Drained frames (taken ++ src) output whole left taken' := by
  induction fuel generalizing frames state taken src with
  | zero => omega
  | succ fuel ih =>
    cases hr with
    | done =>
      rw [flatMap_nil, append_eq_nil_iff, append_eq_nil_iff] at hb
      obtain ⟨⟨-, rfl⟩, -⟩ := hb
      refine ⟨([], .begin, []), [], [], [], ?_, rfl, rfl, .done, rfl⟩
      simp only [drain, decode, decodeHeader, decodeVarint, decodeU64_nil]
    | within hw hs =>
      rename_i frame frames
      rw [append_nil] at hs
      rw [flatMap_cons] at hb
      have hst := decode_advances (hf frame mem_cons_self) hbits hw hb
      rw [drain]
      generalize decode bits state src = decoded at hst ⊢
      cases hst with
      | whole ha =>
        rename_i src'
        have hl : src'.length < src.length := by
          have hlen := congrArg List.length ha
          rw [length_append, length_append] at hlen
          omega
        rw [ha, append_assoc] at hb
        obtain ⟨output, whole, left, taken', hd, hdrained⟩ :=
          ih (fun other ho => hf other (mem_cons_of_mem _ ho)) (rests_begin frames)
            (by simpa using append_cancel_left hb) (by omega)
        refine ⟨(received frame :: output.1, output.2), frame :: whole, left, taken', ?_, ?_⟩
        · dsimp only
          rw [hd]
          rfl
        refine ⟨by rw [hdrained.split, cons_append], ?_, hdrained.rests, ?_⟩
        · rw [hdrained.decoded, map_cons]
        · have hre := hdrained.bytes
          rw [nil_append] at hre
          rw [ha, hre, flatMap_cons, append_assoc]
      | part hw' ha hs' =>
        rename_i st' taken' src'
        refine ⟨_, [], frame :: frames, taken', rfl, rfl, rfl, .within hw' ?_, ha⟩
        rw [← ha]
        exact hs'

theorem Rests.taken {taken src : List UInt8} (hr : Rests frames state taken src) : Rests frames state taken [] := by
  cases hr with
  | done => exact .done
  | within hw hs =>
    apply Rests.within hw
    rw [length_append] at hs
    simp
    omega

theorem feed_frames {taken src future : List UInt8} (hbits : maxFrameSize < 2 ^ bits)
    (chunks : List (List UInt8)) (hf : ∀ frame ∈ frames, Encodable frame) (hr : Rests frames state taken src)
    (hb : taken ++ src ++ (chunks.flatten ++ future) = frames.flatMap wire) :
    ∃ output whole left taken', feed bits state src chunks = .ok output ∧
      Drained frames (taken ++ src ++ chunks.flatten) output whole left taken' := by
  induction chunks generalizing frames state taken src with
  | nil => exact ⟨_, [], frames, taken, rfl, rfl, rfl, hr, by simp⟩
  | cons chunk chunks ih =>
    have hfi : taken ++ (src ++ chunk) ++ (chunks.flatten ++ future) = frames.flatMap wire := by simpa using hb
    obtain ⟨⟨decoded, _, _⟩, whole, _, _, hd, hdrained⟩ :=
      drain_frames hbits hf hr.taken hfi (Nat.lt_succ_self _)
    have ha := hdrained.bytes
    have hs := hdrained.split
    rw [ha, hs, flatMap_append, append_assoc] at hfi
    obtain ⟨output, whole', left', taken'', hfe, hfd⟩ :=
      ih (fun frame hframe => hf frame (hs ▸ mem_append_right _ hframe)) hdrained.rests (append_cancel_left hfi)
    refine ⟨(decoded ++ output.1, output.2), whole ++ whole', left', taken'', ?_, ?_, ?_, hfd.rests, ?_⟩
    · rw [feed, hd]
      dsimp only
      rw [hfe]
      rfl
    · rw [hs, hfd.split, append_assoc]
    · rw [map_append, ← hdrained.decoded, ← hfd.decoded]
    have hre := hfd.bytes
    rw [flatten_cons, flatMap_append, append_assoc _ _ (taken'' ++ output.2.2), ← hre,
      ← append_assoc, append_assoc taken src, ha]
    simp

end Codec

/-- The frame as the other side of the substream has it. -/
def Frame.mirrored : Frame LocalStreamId → Frame LocalStreamId
  | .opened id => .opened ⟨id.num, id.role.not⟩
  | .data id payload => .data ⟨id.num, id.role.not⟩ payload
  | .close id => .close ⟨id.num, id.role.not⟩
  | .reset id => .reset ⟨id.num, id.role.not⟩

/-- Only the side that opens a substream sends its `Open` frame. -/
def Frame.openedByDialer : Frame LocalStreamId → Bool
  | .opened id => id.role = .dialer
  | _ => true

namespace Codec

theorem received_intoLocal (ho : frame.openedByDialer) : (received frame).intoLocal = frame.mirrored := by
  cases frame with
  | opened id =>
    have hr : id.role = .dialer := by simpa [openedByDialer] using ho
    simp [received, intoLocal, mirrored, RemoteStreamId.intoLocal, hr]
  | data => rfl
  | close => rfl
  | reset => rfl

variable [UnsignedVarint]

theorem mapM_encode {frames : List (Frame LocalStreamId)} (hf : ∀ frame ∈ frames, Encodable frame) :
    frames.mapM encode = .ok (frames.map wire) := by
  induction frames with
  | nil => rfl
  | cons frame frames ih =>
    rw [mapM_cons, encode_of_encodable (hf frame mem_cons_self), ih fun other ho => hf other (mem_cons_of_mem _ ho)]
    rfl

section

variable {frames whole left : List (Frame LocalStreamId)} {arrived taken : List UInt8}
  {output : List (Frame RemoteStreamId) × CodecDecodeState × List UInt8}
    (hdrained : Drained frames arrived output whole left taken)
include hdrained

theorem Drained.all (hall : arrived = frames.flatMap wire) : output = (frames.map received, .begin, []) := by
  obtain ⟨_, _, _⟩ := output
  obtain ⟨hs, hd, hr, hb⟩ := hdrained
  dsimp only at hd hr hb
  rw [hall, hs, flatMap_append] at hb
  have hl := append_cancel_left hb
  cases hr with
  | done => rw [hs, hd, append_nil]
  | within hw hsh =>
    rw [← hl, flatMap_cons, length_append] at hsh
    omega

theorem Drained.count {count : Nat} (hc : count ≤ frames.length) :
    count ≤ output.1.length ↔ ((frames.take count).flatMap wire).length ≤ arrived.length := by
  obtain ⟨_, _, _⟩ := output
  obtain ⟨rfl, rfl, hr, rfl⟩ := hdrained
  rw [length_map]
  constructor
  · intro hw
    have hs : whole.flatMap wire = (whole.take count).flatMap wire ++ (whole.drop count).flatMap wire := by
      rw [← flatMap_append, take_append_drop]
    rw [take_append_of_le_length hw, hs]
    simp only [length_append]
    omega
  · intro hlen
    by_contra hm
    cases hr with
    | done =>
      simp at hc
      omega
    | within hwi hsh =>
      obtain ⟨extra, rfl⟩ : ∃ extra, count = whole.length + (extra + 1) := ⟨count - whole.length - 1, by omega⟩
      rw [take_length_add_append, take_succ_cons, flatMap_append, flatMap_cons] at hlen
      simp only [length_append] at hlen hsh
      omega

end

/-- Frames that were encoded one after the other and arrive in pieces: at every cut the decoder has given the
frames that had arrived as a whole, and goes on from there with what it kept to give all the others. Each is
the sender's frame as the other side of the substream has it. -/
theorem codec_round_trip (frames : List (Frame LocalStreamId)) (hframes : ∀ frame ∈ frames, Encodable frame)
    (hopened : ∀ frame ∈ frames, frame.openedByDialer) {bits : Nat} (hbits : maxFrameSize < 2 ^ bits) :
    ∃ encodings, frames.mapM encode = .ok encodings ∧
      ∀ early late : List (List UInt8), early.flatten ++ late.flatten = encodings.flatten →
        ∃ first second state src, feed bits .begin [] early = .ok (first, state, src) ∧
          feed bits state src late = .ok (second, .begin, []) ∧
          (first ++ second).map intoLocal = frames.map mirrored ∧
          ∀ count ≤ frames.length, count ≤ first.length ↔
            (encodings.take count).flatten.length ≤ early.flatten.length := by
  refine ⟨frames.map wire, mapM_encode hframes, ?_⟩
  intro early late hb
  rw [← flatMap_def] at hb
  obtain ⟨⟨first, state, src⟩, whole, left, _, he, hdrained⟩ :=
    feed_frames hbits early hframes (rests_begin frames) (by simpa using hb)
  have ha := hdrained.bytes
  have hs := hdrained.split
  have hf : first = whole.map received := hdrained.decoded
  dsimp only [nil_append] at ha
  rw [ha, hs, flatMap_append, append_assoc] at hb
  have hl := append_cancel_left hb
  obtain ⟨_, _, _, _, hla, hd'⟩ :=
    feed_frames hbits late (fun frame hframe => hframes frame (hs ▸ mem_append_right _ hframe))
      hdrained.rests (by rw [append_nil]; exact hl)
  rw [hd'.all hl] at hla
  refine ⟨first, left.map received, state, src, he, hla, ?_, ?_⟩
  · rw [hf, ← map_append, ← hs, map_map]
    apply map_congr_left
    intro frame hframe
    exact received_intoLocal (hopened frame hframe)
  · intro count hc
    have hd := hdrained.count hc
    rwa [nil_append, nil_append, flatMap_def, map_take] at hd

end Codec

namespace Codec

theorem codec_round_trip_openAndData :
    ∃ encodings, [opened (.dialer 3), .data (.dialer 3) [7, 8]].mapM encode = .ok encodings ∧
      ∀ early late : List (List UInt8), early.flatten ++ late.flatten = encodings.flatten →
        ∃ first second state src, feed 64 .begin [] early = .ok (first, state, src) ∧
          feed 64 state src late = .ok (second, .begin, []) ∧
          (first ++ second).map intoLocal = [.opened ⟨3, .listener⟩, .data ⟨3, .listener⟩ [7, 8]] ∧
          ∀ count ≤ 2, count ≤ first.length ↔ (encodings.take count).flatten.length ≤ early.flatten.length := by
  have hf : ∀ frame ∈ [opened (.dialer 3), .data (.dialer 3) [7, 8]], Encodable frame := by
    intro frame hframe
    simp only [mem_cons, not_mem_nil, or_false] at hframe
    rcases hframe with rfl | rfl
    all_goals exact ⟨by decide, by decide⟩
  exact codec_round_trip _ hf (by decide) (by decide)

/-- An `Open` frame with the role of a listener is not read as the frame of the other side. -/
theorem not_mirrored_openByListener : encode (.opened ⟨0, .listener⟩) = .ok [0, 0] ∧
    feed 64 .begin [] [[0, 0]] = .ok ([.opened ⟨0, .dialer⟩], .begin, []) ∧
    (opened (⟨0, .dialer⟩ : RemoteStreamId)).streamId.intoLocal ≠ ⟨0, Endpoint.not .listener⟩ := by
  decide +kernel

section

variable [UnsignedVarint]

theorem decodeLen_refuses_iff {len : Nat} {src rest : List UInt8} (hread : decodeVarint src = .ok (some (len, rest)))
    (bits header : Nat) :
    (decodeLen bits header src).1 = .error (.frameLength len) ↔ maxFrameSize < len % 2 ^ bits := by
  simp only [decodeLen, hread]
  split_ifs with hl
  · exact iff_of_true rfl hl
  refine iff_of_false ?_ hl
  unfold decodePayload
  split_ifs
  · exact nofun
  · split <;> exact nofun

/-- A length is refused as too long, whether the header comes with it or has been read before, if and only if it is
above the maximum as `usize`. -/
theorem decode_refuses_iff (bits len : Nat) (src rest : List UInt8)
    (hread : decodeVarint src = .ok (some (len, rest))) (header : Nat) (hheader : header < 2 ^ 64) :
    (decode bits (.hasHeader header) src).1 = .error (.frameLength len) ∧
      (decode bits .begin (encodeU64 header ++ src)).1 = .error (.frameLength len) ↔
        maxFrameSize < len % 2 ^ bits := by
  have hb : decode bits .begin (encodeU64 header ++ src) = decodeLen bits header src := by
    simp only [decode, decodeHeader, decodeVarint, decodeU64_encodeU64 hheader]
  rw [hb, decode, and_self]
  exact decodeLen_refuses_iff hread bits header

end

theorem decode_refuses_wide : (decode 64 (.hasHeader 1) (encodeU64 (2 ^ 32))).1 = .error (.frameLength (2 ^ 32)) :=
  ((decode_refuses_iff 64 (2 ^ 32) _ [] (by decide +kernel) 1 (by decide)).2 (by decide)).1

/-- With 32 bits a length of 4 GiB is zero: the frame is taken for an empty one. -/
theorem decode_narrow : decode 32 (.hasHeader 1) (encodeU64 (2 ^ 32)) =
    (.ok (some (.data ⟨0, .listener⟩ [])), .begin, []) := by
  decide +kernel

end Codec
end RustLibp2p.Mplex
