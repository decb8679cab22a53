import RustLibp2p.Bytes
import RustLibp2p.StreamDecode

/-! The packets in which the camera sends audio and video. The decoder works on the carry-over buffer of
a receiver and leaves it alone while no whole packet is there. -/

namespace RustLibp2p.Camera
open Bytes StreamDecode List

inductive MediaTrack where
  | video
  | audio
  deriving DecidableEq

namespace MediaTrack

def toU8 : MediaTrack → UInt8
  | video => 0x01
  | audio => 0x02

def fromU8 (v : UInt8) : Option MediaTrack := if v = 0x01 then some video else if v = 0x02 then some audio else none

@[simp] theorem fromU8_toU8 (track : MediaTrack) : fromU8 track.toU8 = some track := by cases track <;> rfl

end MediaTrack

open MediaTrack

/-- Bit 2 of the flags of a video packet. -/
def flagVideoKeyframe : UInt8 := 0x04

structure MediaPacket where
  track : MediaTrack
  timestampMs : UInt64
  flags : UInt8
  data : List UInt8
  deriving DecidableEq

namespace MediaPacket

/-- Track, timestamp, flags and payload length. -/
def headerSize : Nat := 1 + 8 + 1 + 4

def isKeyframe (packet : MediaPacket) : Bool := packet.track == .video && (packet.flags &&& flagVideoKeyframe) != 0

/-- The payload length is cast to 32 bits, whatever the payload. -/
def encode (packet : MediaPacket) : List UInt8 :=
  packet.track.toU8 :: (beBytes 8 packet.timestampMs.toNat ++
    packet.flags :: (beBytes 4 (packet.data.length % 2 ^ 32) ++ packet.data))

/-- The packet at the front of the buffer and the buffer after it. -/
def tryDecode (buf : List UInt8) : Option (MediaPacket × List UInt8) :=
  if buf.length < headerSize then none
  else
    match fromU8 (buf.getD 0 0) with
    | none => none
    | some track =>
      let timestampMs := UInt64.ofNat (fromBeBytes ((buf.drop 1).take 8))
      let flags := buf.getD 9 0
      let dataLen := fromBeBytes ((buf.drop 10).take 4)
      if buf.length < headerSize + dataLen then none
      else some (⟨track, timestampMs, flags, (buf.drop headerSize).take dataLen⟩, buf.drop (headerSize + dataLen))

/-- The length field can hold the payload length. -/
def Fits (packet : MediaPacket) : Prop := packet.data.length < 2 ^ 32

instance (packet : MediaPacket) : Decidable packet.Fits := inferInstanceAs (Decidable (_ < _))

theorem encode_length (pkt : MediaPacket) : pkt.encode.length = headerSize + pkt.data.length := by
  simp only [encode, headerSize, length_cons, length_append, beBytes_length]
  omega

theorem tryDecode_eq_some_iff {buf rest : List UInt8} {pkt : MediaPacket} : tryDecode buf = some (pkt, rest) ↔
      ∃ dataLen, dataLen = fromBeBytes ((buf.drop 10).take 4) ∧ headerSize + dataLen ≤ buf.length ∧
        fromU8 (buf.getD 0 0) = some pkt.track ∧
        pkt.timestampMs = UInt64.ofNat (fromBeBytes ((buf.drop 1).take 8)) ∧
        pkt.flags = buf.getD 9 0 ∧ pkt.data = (buf.drop headerSize).take dataLen ∧
        rest = buf.drop (headerSize + dataLen) := by
  obtain ⟨_, _, _, _⟩ := pkt
  constructor
  · intro hd
    unfold tryDecode at hd
    split at hd
    · cases hd
    cases ht : fromU8 (buf.getD 0 0) with
    | none => simp only [ht, reduceCtorEq] at hd
    | some found =>
      simp only [ht] at hd
      split at hd
      · cases hd
      · rename_i hl
        cases hd
        exact ⟨_, rfl, by omega, rfl, rfl, rfl, rfl, rfl⟩
  · rintro ⟨_, hlen, hb, ht, hti, hf, hda, hr⟩
    subst hlen
    dsimp only at ht hti hf hda
    rw [tryDecode, if_neg (by omega)]
    simp only [ht, if_neg (Nat.not_lt.2 hb), hti, hf, hda, hr]

theorem tryDecode_streaming : Streaming tryDecode where
  extend := by
    intro buf pkt rest more hd
    rw [tryDecode_eq_some_iff] at hd ⊢
    obtain ⟨dataLen, hlen, hb, ht, hti, hf, hda, hr⟩ := hd
    simp only [headerSize] at hb hda hr ⊢
    -- Every field lies inside the part of the buffer that was there before.
    have hfi : ∀ start count, start + count ≤ buf.length →
        ((buf ++ more).drop start).take count = (buf.drop start).take count := by
      intro start count hi
      rw [drop_append_of_le_length (by omega), take_append_of_le_length]
      rw [length_drop]
      omega
    have hby : ∀ idx, idx < buf.length → (buf ++ more).getD idx 0 = buf.getD idx 0 := by
      intro idx hi
      simp only [getD_eq_getElem?_getD, getElem?_append_left hi]
    refine ⟨dataLen, ?_, ?_, ?_, ?_, ?_, ?_, ?_⟩
    · rw [hfi 10 4 (by omega), hlen]
    · rw [length_append]; omega
    · rw [hby 0 (by omega), ht]
    · rw [hfi 1 8 (by omega), hti]
    · rw [hby 9 (by omega), hf]
    · rw [hfi _ _ (by omega), hda]
    · rw [drop_append_of_le_length (by omega), hr]
  consume := by
    intro buf pkt rest hd
    obtain ⟨dataLen, -, hb, -, -, -, -, rfl⟩ := tryDecode_eq_some_iff.1 hd
    simp only [headerSize] at hb ⊢
    rw [length_drop]
    omega

theorem tryDecode_encode (pkt : MediaPacket) (hf : pkt.Fits) (more : List UInt8) :
    tryDecode (pkt.encode ++ more) = some (pkt, more) := by
  rw [tryDecode_eq_some_iff]
  have hlen : fromBeBytes (beBytes 4 (pkt.data.length % 2 ^ 32)) = pkt.data.length := by
    rw [Nat.mod_eq_of_lt hf, fromBeBytes_beBytes_of_lt]
    exact hf
  have ht : fromBeBytes (beBytes 8 pkt.timestampMs.toNat) = pkt.timestampMs.toNat :=
    fromBeBytes_beBytes_of_lt pkt.timestampMs.toNat_lt
  have hh : pkt.encode ++ more = (pkt.track.toU8 :: (beBytes 8 pkt.timestampMs.toNat ++ [pkt.flags])) ++
        (beBytes 4 (pkt.data.length % 2 ^ 32) ++ (pkt.data ++ more)) := by
    simp [encode]
  have hb : pkt.encode ++ more = (pkt.track.toU8 :: (beBytes 8 pkt.timestampMs.toNat ++ pkt.flags ::
        beBytes 4 (pkt.data.length % 2 ^ 32))) ++ (pkt.data ++ more) := by
    simp [encode]
  refine ⟨pkt.data.length, ?_, ?_, ?_, ?_, ?_, ?_, ?_⟩
  · rw [hh, drop_left' (by simp), take_left' (by simp), hlen]
  · rw [length_append, encode_length]
    omega
  · simp [encode]
  · simp [encode, ht]
  · simp [encode]
  · rw [hb, drop_left' (by simp [headerSize]), take_left' rfl]
  · rw [hb, ← drop_drop, drop_left' (by simp [headerSize]), drop_left' rfl]

/-- A buffer without a whole packet is the beginning of one if it is empty or its first byte names a track, and only
then: another first byte stays in front of the buffer for ever. -/
theorem tryDecode_progress_iff (buf : List UInt8) :
    (tryDecode buf = none → ∃ more, tryDecode (buf ++ more) ≠ none) ↔
      ∀ byte ∈ buf.head?, fromU8 byte ≠ none := by
  constructor
  · intro hp byte hb hba
    obtain ⟨rest, rfl⟩ := head?_eq_some_iff.1 hb
    have hn : ∀ more, tryDecode (byte :: rest ++ more) = none := by
      intro more
      simp [tryDecode, hba]
    obtain ⟨more, hm⟩ := hp (append_nil (byte :: rest) ▸ hn [])
    exact hm (hn more)
  · intro hf _
    -- more bytes than any length field can ask for
    obtain ⟨count, hc⟩ : ∃ count, headerSize + 256 ^ 4 ≤ count := ⟨_, Nat.le_refl _⟩
    refine ⟨toU8 .video :: replicate count 0, ?_⟩
    generalize hfu : buf ++ toU8 .video :: replicate count 0 = full
    have hl : count ≤ full.length := by
      rw [← hfu, length_append, length_cons, length_replicate]
      omega
    have hlen : fromBeBytes ((full.drop 10).take 4) < 256 ^ 4 :=
      (fromBeBytes_lt _).trans_le (Nat.pow_le_pow_right (by decide) (length_take_le ..))
    have hna : fromU8 (full.getD 0 0) ≠ none := by
      cases buf with
      | nil => simp [← hfu]
      | cons => simpa [← hfu] using hf
    obtain ⟨_, ht⟩ := Option.ne_none_iff_exists'.mp hna
    rw [tryDecode, if_neg (by omega), ht]
    dsimp only
    rw [if_neg (by omega)]
    exact nofun

/-- No track has the number 3. -/
theorem tryDecode_stuck : tryDecode [3] = none ∧ ∀ more, tryDecode ([3] ++ more) = none :=
  ⟨rfl, fun more => by simp [tryDecode, fromU8]⟩

end MediaPacket

/-! The viewer's receive loop. Every whole packet in the carry-over buffer is taken off, and video is
held back until the first key frame has been seen or the viewer has waited too long for one. -/
open MediaPacket

/-- The NAL header byte starts a random access picture of H.265 or an IDR slice of H.264. -/
def isKeyframeNal (b : UInt8) : Bool :=
  let h265Type := (b >>> 1) &&& 0x3F
  let h264Type := b &&& 0x1F
  (16 ≤ h265Type && h265Type ≤ 21) || h264Type == 5

/-- Scans for start codes. The list is the data from the scan position on, and the scan stops with
fewer than five bytes left. -/
def isNalKeyframe : List UInt8 → Bool
  | b0 :: b1 :: b2 :: b3 :: b4 :: rest =>
    if b0 = 0 ∧ b1 = 0 ∧ b2 = 0 ∧ b3 = 1 then
      isKeyframeNal b4 || isNalKeyframe rest
    else if b0 = 0 ∧ b1 = 0 ∧ b2 = 1 then
      isKeyframeNal b3 || isNalKeyframe (b4 :: rest)
    else isNalKeyframe (b1 :: b2 :: b3 :: b4 :: rest)
  | _ => false

/-- In milliseconds. -/
def idrWaitTimeout : Nat := 5000

inductive MediaPlayerEvent where
  | streamEof (reason : String)
  | disconnected (reason : String)

/-- What the loop meets outside: the clock at its successive readings, in milliseconds, and whether
the packet channel still takes the packet of the n-th `send`. -/
structure ReceiverEnv where
  clock : Nat → Nat
  channelOpen : Nat → Bool

/-- The loop's variables but for the carry-over buffer, and what it has forwarded. -/
structure FrameGate where
  gotFirstIdr : Bool
  firstVideoAt : Option Nat
  clockReads : Nat
  /-- How often `sender.send` has been called. -/
  sends : Nat
  forwarded : List MediaPacket

def FrameGate.start : FrameGate := ⟨false, none, 0, 0, []⟩

/-- A video packet gets its key frame flag from the scan of its payload. -/
def scanKeyframe (packet : MediaPacket) : MediaPacket :=
  if packet.track = .video ∧ isNalKeyframe packet.data = true then
    { packet with flags := packet.flags ||| flagVideoKeyframe }
  else packet

namespace FrameGate

section

variable (env : ReceiverEnv) (gate : FrameGate)

/-- `sender.send(packet)`; a closed channel breaks the decode loop. -/
def forward (packet : MediaPacket) : FrameGate × Bool :=
  if env.channelOpen gate.sends then
    ({ gate with sends := gate.sends + 1, forwarded := gate.forwarded ++ [packet] }, true)
  else ({ gate with sends := gate.sends + 1 }, false)

/-- The time of the first video packet; the clock is read when this is it. -/
def markFirstVideo : FrameGate :=
  match gate.firstVideoAt with
  | some _ => gate
  | none => { gate with
      firstVideoAt := some (env.clock gate.clockReads)
      clockReads := gate.clockReads + 1 }

/-- The body of the decode loop: the new state, and whether the loop goes on. -/
def onPacket (decoded : MediaPacket) : FrameGate × Bool :=
  let packet := scanKeyframe decoded
  if packet.track = .video ∧ gate.gotFirstIdr = false then
    let gate := gate.markFirstVideo env
    let waited := gate.firstVideoAt.map fun t => env.clock gate.clockReads - t
    let gate := { gate with clockReads := gate.clockReads + 1 }
    if packet.isKeyframe || waited.any (idrWaitTimeout ≤ ·) then
      forward env { gate with gotFirstIdr := true } packet
    else (gate, true)
  else forward env gate packet

end
end FrameGate

open FrameGate

/-- One answer of `stream.read`. -/
inductive ReadResult where
  | ok (bytes : List UInt8)
  | err (message : String)

structure Receiver where
  gate : FrameGate
  buf : List UInt8
  events : List MediaPlayerEvent
  running : Bool

namespace Receiver

def start : Receiver := ⟨FrameGate.start, [], [], true⟩

def step (env : ReceiverEnv) (peerId : String) (s : Receiver) (read : ReadResult) : Receiver :=
  if s.running = false then s
  else
    match read with
    | .ok [] => { s with
        events := s.events ++ [.streamEof ("Stream EOF from " ++ peerId)]
        running := false }
    | .ok bytes =>
      let drained := drain tryDecode (onPacket env) s.gate (s.buf ++ bytes)
      { s with gate := drained.1, buf := drained.2 }
    | .err message => { s with
        events := s.events ++ [.disconnected ("Stream read error from " ++ peerId ++ ": " ++ message)]
        running := false }

end Receiver

def receiveFrames (env : ReceiverEnv) (peerId : String) (reads : List ReadResult) : Receiver :=
  reads.foldl (Receiver.step env peerId) Receiver.start

/-- All audio packets, and the video packets from the first key frame on, in order. -/
def fromFirstKeyframe (packets : List MediaPacket) : List MediaPacket :=
  (packets.takeWhile (!·.isKeyframe)).filter (·.track = .audio) ++ packets.dropWhile (!·.isKeyframe)

/-- The clock never shows the waiting time for a key frame as used up. -/
def ReceiverEnv.Patient (env : ReceiverEnv) : Prop := ∀ reading, env.clock reading < env.clock 0 + idrWaitTimeout

def ReceiverEnv.Listening (env : ReceiverEnv) : Prop := ∀ send, env.channelOpen send = true

/-! ### The gate over a list of packets -/

namespace FrameGate

variable {env : ReceiverEnv}

section

variable (hlisten : env.Listening) (gate : FrameGate) (packet : MediaPacket)
include hlisten

theorem forward_continues :
    forward env gate packet =
      ({ gate with sends := gate.sends + 1, forwarded := gate.forwarded ++ [packet] }, true) := by
  rw [forward, if_pos (hlisten gate.sends)]

theorem onPacket_continues :
    (gate.onPacket env packet).2 := by
  unfold onPacket
  dsimp only
  split_ifs
  · rw [forward_continues hlisten]
  · rfl
  · rw [forward_continues hlisten]

end

/-- No key frame was seen yet, and the waiting time runs from the first reading of the clock. -/
structure Holding (env : ReceiverEnv) (gate : FrameGate) : Prop where
  closed : gate.gotFirstIdr = false
  since : gate.firstVideoAt = some (env.clock 0) ∨ gate.firstVideoAt = none ∧ gate.clockReads = 0

variable {gate : FrameGate}

theorem Holding.markFirstVideo (hh : Holding env gate) :
    (gate.markFirstVideo env).firstVideoAt = some (env.clock 0) ∧ (gate.markFirstVideo env).gotFirstIdr = false ∧
      (gate.markFirstVideo env).forwarded = gate.forwarded := by
  unfold FrameGate.markFirstVideo
  rcases hh.since with hs | ⟨hn, hr⟩
  · simp only [hs, hh.closed, and_self]
  · simp only [hn, hr, hh.closed, and_self]

section

variable (hlisten : env.Listening)
include hlisten

theorem onPacket_of_open (ho : gate.gotFirstIdr) (packet : MediaPacket) :
    (gate.onPacket env packet).1.gotFirstIdr ∧
      (gate.onPacket env packet).1.forwarded = gate.forwarded ++ [scanKeyframe packet] := by
  simp only [onPacket, ho, Bool.true_eq_false, and_false, if_false, forward_continues hlisten, and_self]

variable {packet : MediaPacket}

theorem onPacket_keyframe (hh : Holding env gate)
    (hk : (scanKeyframe packet).isKeyframe) : (gate.onPacket env packet).1.gotFirstIdr ∧
      (gate.onPacket env packet).1.forwarded = gate.forwarded ++ [scanKeyframe packet] := by
  have ht : (scanKeyframe packet).track = .video := by
    simp only [isKeyframe, Bool.and_eq_true, beq_iff_eq] at hk
    exact hk.1
  obtain ⟨-, -, hf⟩ := hh.markFirstVideo
  simp only [onPacket, ht, hh.closed, hk, and_self, if_true, Bool.true_or, forward_continues hlisten, hf]

theorem onPacket_not_keyframe (hp : env.Patient) (hh : Holding env gate) (hk :
    (scanKeyframe packet).isKeyframe = false) :
    Holding env (gate.onPacket env packet).1 ∧
      (gate.onPacket env packet).1.forwarded = gate.forwarded ++ [scanKeyframe packet].filter (·.track = .audio) := by
  cases ht : (scanKeyframe packet).track with
  | audio =>
    simp only [onPacket, ht, reduceCtorEq, false_and, if_false, forward_continues hlisten,
      filter_cons, filter_nil, decide_true, if_true, and_true]
    exact { hh with }
  | video =>
    obtain ⟨hs, hc, hf⟩ := hh.markFirstVideo
    have hw (reading : Nat) : ¬idrWaitTimeout ≤ env.clock reading - env.clock 0 := by
      have hcl := hp reading
      have hpos : 0 < idrWaitTimeout := by decide
      omega
    simp only [onPacket, ht, hh.closed, and_self, if_true, hk, hs, Option.map_some,
      Option.any_some, decide_eq_false (hw _), Bool.or_self, Bool.false_eq_true, if_false,
      filter_cons, filter_nil, reduceCtorEq, decide_false, append_nil, hf,
      and_true]
    exact ⟨hc, Or.inl rfl⟩

theorem foldl_onPacket_of_open (pkts : List MediaPacket) (ho : gate.gotFirstIdr) :
    (pkts.foldl (fun gate packet => (gate.onPacket env packet).1) gate).forwarded =
      gate.forwarded ++ pkts.map scanKeyframe := by
  induction pkts generalizing gate with
  | nil => simp
  | cons packet pkts ih =>
    obtain ⟨hs, hf⟩ := onPacket_of_open hlisten ho packet
    rw [foldl_cons, ih hs, hf, map_cons, append_assoc, singleton_append]

theorem foldl_onPacket (hp : env.Patient) (pkts : List MediaPacket)
    (hh : Holding env gate) : (pkts.foldl (fun gate packet => (gate.onPacket env packet).1) gate).forwarded =
      gate.forwarded ++ fromFirstKeyframe (pkts.map scanKeyframe) := by
  induction pkts generalizing gate with
  | nil => simp [fromFirstKeyframe]
  | cons packet pkts ih =>
    rw [foldl_cons, map_cons]
    cases hk : (scanKeyframe packet).isKeyframe with
    | true =>
      obtain ⟨ho, hf⟩ := onPacket_keyframe hlisten hh hk
      rw [foldl_onPacket_of_open hlisten pkts ho, hf]
      simp [fromFirstKeyframe, hk]
    | false =>
      obtain ⟨hs, hf⟩ := onPacket_not_keyframe hlisten hp hh hk
      rw [ih hs, hf, append_assoc]
      congr 1
      simp only [fromFirstKeyframe, takeWhile_cons, dropWhile_cons, hk, Bool.not_false,
        if_true, ← append_assoc, ← filter_append, singleton_append]

end
end FrameGate

theorem foldl_step_ok (env : ReceiverEnv) (peerId : String) (chunks : List (List UInt8))
    (hc : ∀ chunk ∈ chunks, chunk ≠ []) (s : Receiver) (hrun : s.running) :
    (chunks.map ReadResult.ok).foldl (Receiver.step env peerId) s = { s with
        gate := (chunks.foldl (fun cur piece => drain tryDecode
          (onPacket env) cur.1 (cur.2 ++ piece)) (s.gate, s.buf)).1
        buf := (chunks.foldl (fun cur piece => drain tryDecode
          (onPacket env) cur.1 (cur.2 ++ piece)) (s.gate, s.buf)).2 } := by
  induction chunks generalizing s with
  | nil => rfl
  | cons chunk chunks ih =>
    have hs : s.step env peerId (.ok chunk) = { s with
          gate := (drain tryDecode (onPacket env) s.gate (s.buf ++ chunk)).1
          buf := (drain tryDecode (onPacket env) s.gate (s.buf ++ chunk)).2 } := by
      cases chunk with
      | nil => exact absurd rfl (hc [] mem_cons_self)
      | cons => simp only [Receiver.step, hrun, Bool.true_eq_false, if_false]
    rw [map_cons, foldl_cons, foldl_cons,
      ih (fun chunk hmem => hc chunk (mem_cons_of_mem _ hmem)) _ (by rw [hs]; exact hrun),
      hs]

theorem receiveFrames_handled (env : ReceiverEnv) (peerId : String) {pkts : List MediaPacket}
    (hf : ∀ packet ∈ pkts, packet.Fits) {chunks : List (List UInt8)} (hc : ∀ chunk ∈ chunks, chunk ≠ [])
    (hcu : chunks.flatten = pkts.flatMap encode) : ∃ handled left, pkts = handled ++ left ∧
      (receiveFrames env peerId (chunks.map .ok)).gate =
        handled.foldl (fun gate packet => (gate.onPacket env packet).1) start ∧
      (env.Listening → left = [] ∧ (receiveFrames env peerId (chunks.map .ok)).buf = []) := by
  have he := fun packet hmem => tryDecode_encode packet (hf packet hmem)
  obtain ⟨handled, left, rfl, _, hfo, hr, hn⟩ := foldl_drain_encoded tryDecode_streaming
    (onPacket env) he chunks start (fun _ => rfl) ((nil_append _).trans hcu)
  rw [receiveFrames, foldl_step_ok env peerId chunks hc Receiver.start rfl]
  refine ⟨handled, left, rfl, congrArg Prod.fst hfo, fun hlisten => ?_⟩
  have hem : left = [] := by
    cases left with
    | nil => rfl
    | cons packet =>
      have hw := hn (onPacket_continues hlisten)
      rw [hr, flatMap_cons, he packet (by simp)] at hw
      cases hw
  subst hem
  exact ⟨rfl, (congrArg Prod.snd hfo).trans hr⟩

/-- **Reads may be cut anywhere.** However the encodings of the packets arrive, the viewer forwards
the audio and the video from the first key frame on, and no byte is left over. -/
theorem receiveFrames_chunks (env : ReceiverEnv) (hlisten : env.Listening) (hpatient : env.Patient) (peerId : String)
    (packets : List MediaPacket) (hfits : ∀ packet ∈ packets, packet.Fits) (chunks : List (List UInt8))
    (hchunks : ∀ chunk ∈ chunks, chunk ≠ []) (hcut : chunks.flatten = packets.flatMap encode) :
    (receiveFrames env peerId (chunks.map .ok)).gate.forwarded = fromFirstKeyframe (packets.map scanKeyframe) ∧
      (receiveFrames env peerId (chunks.map .ok)).buf = [] := by
  obtain ⟨handled, _, rfl, hg, hall⟩ := receiveFrames_handled env peerId hfits hchunks hcut
  obtain ⟨rfl, hb⟩ := hall hlisten
  rw [hg, append_nil]
  exact ⟨foldl_onPacket hlisten hpatient handled ⟨rfl, Or.inr ⟨rfl, rfl⟩⟩, hb⟩

def openingPackets : List MediaPacket :=
  [⟨.video, 0, 0, [0, 0, 0, 1, 0x02]⟩, ⟨.audio, 20, 2, [7, 7]⟩, ⟨.video, 40, 0, [0, 0, 1, 0x26, 1]⟩]

theorem receiveFrames_openingPackets :
    (receiveFrames ⟨fun _ => 0, fun _ => true⟩ "cam" (([(openingPackets.flatMap encode).take 20,
        (openingPackets.flatMap encode).drop 20]).map .ok)).gate.forwarded =
      [⟨.audio, 20, 2, [7, 7]⟩, ⟨.video, 40, 4, [0, 0, 1, 0x26, 1]⟩] :=
  (receiveFrames_chunks ⟨fun _ => 0, fun _ => true⟩ (fun _ => rfl) (fun _ => by simp [idrWaitTimeout]) "cam"
    openingPackets (by decide) _ (by decide) (by simp)).1

theorem isKeyframe_scanKeyframe {packet : MediaPacket} (hv : packet.track = .video) :
    (scanKeyframe packet).isKeyframe = (isNalKeyframe packet.data || packet.isKeyframe) := by
  have hb : ∀ bits : BitVec 8, (bits ||| 4) &&& 4 ≠ 0 := by decide
  have hs : (packet.flags ||| flagVideoKeyframe) &&& flagVideoKeyframe ≠ 0 :=
    fun hz => hb packet.flags.toBitVec (congrArg UInt8.toBitVec hz)
  cases hk : isNalKeyframe packet.data <;> simp [scanKeyframe, isKeyframe, hv, hk, hs]

theorem FrameGate.forwarded_onPacket (env : ReceiverEnv) (gate : FrameGate) (packet : MediaPacket) :
    (gate.onPacket env packet).1.forwarded ⊆ gate.forwarded ++ [scanKeyframe packet] := by
  have hm : (gate.markFirstVideo env).forwarded = gate.forwarded := by
    unfold markFirstVideo
    split <;> rfl
  unfold onPacket forward
  dsimp only
  split_ifs <;> simp [hm]

/-- The key frame flag of a packet says what the scan of its data says. -/
def FlagSound (packet : MediaPacket) : Prop := packet.track = .video → packet.isKeyframe = isNalKeyframe packet.data

/-- Whatever the clock and the channel do: if the camera flags no picture that is not a key frame for the scan, then
the flags of all forwarded packets are right. -/
theorem receiveFrames_flagSound (env : ReceiverEnv) (peerId : String) (packets : List MediaPacket)
    (hfits : ∀ packet ∈ packets, packet.Fits) (chunks : List (List UInt8)) (hchunks : ∀ chunk ∈ chunks, chunk ≠ [])
    (hcut : chunks.flatten = packets.flatMap encode)
    (hflags : ∀ packet ∈ packets, packet.isKeyframe = true → isNalKeyframe packet.data = true) :
    ∀ packet ∈ (receiveFrames env peerId (chunks.map .ok)).gate.forwarded, FlagSound packet := by
  obtain ⟨handled, _, rfl, hg, -⟩ := receiveFrames_handled env peerId hfits hchunks hcut
  rw [hg]
  refine foldlRecOn (motive := fun gate : FrameGate => ∀ packet ∈ gate.forwarded, FlagSound packet) handled _
    (forall_mem_nil _) ?_
  intro gate hg packet hp other ho
  rcases mem_append.1 (gate.forwarded_onPacket env packet ho) with hol | hn
  · exact hg other hol
  cases mem_singleton.1 hn
  have hs : (scanKeyframe packet).data = packet.data ∧ (scanKeyframe packet).track = packet.track := by
    unfold scanKeyframe
    split_ifs <;> exact ⟨rfl, rfl⟩
  intro hv
  rw [isKeyframe_scanKeyframe (hs.2 ▸ hv), hs.1]
  cases hk : packet.isKeyframe with
  | false => exact Bool.or_false _
  | true => rw [hflags packet (mem_append_left _ hp) hk, Bool.or_self]

theorem receiveFrames_flagSound_opening : ∃ packet ∈ (receiveFrames ⟨fun _ => 0, fun _ => true⟩ "cam"
    ([openingPackets.flatMap encode].map .ok)).gate.forwarded, packet.track = .video ∧ FlagSound packet :=
  ⟨⟨.video, 40, 4, [0, 0, 1, 0x26, 1]⟩, by decide +kernel, rfl,
    receiveFrames_flagSound ⟨fun _ => 0, fun _ => true⟩ "cam" openingPackets (by decide)
      [openingPackets.flatMap encode] (by decide) (by simp) (by decide) _ (by decide +kernel)⟩

/-- The camera has set the flag of a predicted picture. -/
theorem flag_forwarded_unchecked : ∃ packet ∈ (receiveFrames ⟨fun _ => 0, fun _ => true⟩ "cam"
    [.ok (encode ⟨.video, 0, 4, [0, 0, 0, 1, 0x02]⟩)]).gate.forwarded, ¬FlagSound packet :=
  ⟨⟨.video, 0, 4, [0, 0, 0, 1, 0x02]⟩, by decide +kernel, fun hs => absurd (hs rfl) (by decide)⟩

end RustLibp2p.Camera
