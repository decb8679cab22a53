import Mathlib.Data.List.Induction
import RustLibp2p.MediaPacket

/-! The loop that sends one camera stream to one viewer. Each packet is written under a timer; when it
fires the write is dropped where it stands. The model keeps the bytes that reached the stream, so a write
dropped in the middle leaves its first bytes in front of the next packet. -/

namespace RustLibp2p.Camera
open StreamDecode List MediaPacket

/-- What ends the current `.await` of the future `write_all(&encoded); flush()`. -/
inductive WriteEvent where
  /-- The poll is answered: `poll_write` took `n` bytes or, with nothing left to write, the flush is
  through. -/
  | ready (n : Nat)
  | failed
  /-- The timer of `tokio::time::timeout` fires first. -/
  | elapsed

inductive WriteResult where
  | completed
  | failed
  | timedOut
  /-- The events ran out while the future still waits. -/
  | pending
  deriving DecidableEq

/-- The timed write of `bytes`: how it ends, and the bytes the stream took before that. -/
def timedWrite : List UInt8 → List WriteEvent → WriteResult × List UInt8
  | _, [] => (.pending, [])
  | _, .failed :: _ => (.failed, [])
  | _, .elapsed :: _ => (.timedOut, [])
  | [], .ready _ :: _ => (.completed, [])
  | byte :: bytes, .ready n :: events =>
    -- A `poll_write` that takes nothing makes `write_all` fail with `WriteZero`.
    if n = 0 then (.failed, [])
    else
      let rest := timedWrite ((byte :: bytes).drop n) events
      (rest.1, (byte :: bytes).take n ++ rest.2)

/-- One answer of `source.recv()`, together with the fate of the write it starts. -/
inductive RecvEvent where
  | ok (packet : MediaPacket) (events : List WriteEvent)
  | lagged (n : Nat)
  | closed

inductive SenderPhase where
  | receiving
  | writing
  | ended
  deriving DecidableEq

structure VideoSender where
  phase : SenderPhase
  stream : List UInt8
  /-- The packets counted in `frameCount`: those whose write and flush completed. -/
  sent : List MediaPacket
  frameCount : Nat
  bytesSent : Nat
  laggedCount : Nat
  droppedCount : Nat
  /-- The encoder channels a key frame was asked of. -/
  idrRequests : List Nat

def idrChannel (streamName : String) : Nat :=
  match streamName with
  | "main" => 0
  | "main(legacy)" => 0
  | "sub" => 1
  | "third" => 2
  | _ => 0

namespace VideoSender

/-- A new viewer: a key frame is asked for before the first packet is taken. -/
def start (streamName : String) : VideoSender := ⟨.receiving, [], [], 0, 0, 0, 0, [idrChannel streamName]⟩

def step (streamName : String) (s : VideoSender) (event : RecvEvent) : VideoSender :=
  if s.phase ≠ .receiving then s
  else
    match event with
    | .ok packet events =>
      let encoded := packet.encode
      let write := timedWrite encoded events
      let s := { s with stream := s.stream ++ write.2 }
      match write.1 with
      | .completed => { s with
          sent := s.sent ++ [packet]
          frameCount := s.frameCount + 1
          bytesSent := s.bytesSent + encoded.length }
      | .failed => { s with phase := .ended }
      -- The frame is dropped and the connection kept.
      | .timedOut => { s with droppedCount := s.droppedCount + 1 }
      | .pending => { s with phase := .writing }
    | .lagged n => { s with
        laggedCount := s.laggedCount + n
        idrRequests := s.idrRequests ++ [idrChannel streamName] }
    | .closed => { s with phase := .ended }

end VideoSender

def streamVideoToViewer (streamName : String) (schedule : List RecvEvent) : VideoSender :=
  schedule.foldl (VideoSender.step streamName) (VideoSender.start streamName)

/-- The bytes on the stream decode to exactly the packets whose write completed, in order. -/
def FramingHolds (s : VideoSender) : Prop := (decodeAll tryDecode s.stream).1 = s.sent

instance (s : VideoSender) : Decidable (FramingHolds s) := inferInstanceAs (Decidable (_ = _))

/-- Bytes the stream is given before the first event that is not an answer to a poll. -/
def accepted : List WriteEvent → Nat
  | .ready n :: events => n + accepted events
  | _ => 0

namespace RecvEvent

/-- Bytes the stream is given in the write the event starts. -/
def taken : RecvEvent → Nat
  | .ok _ events => accepted events
  | _ => 0

/-- A write of the event completes or is abandoned by its timer. -/
def Timed : RecvEvent → Prop
  | .ok packet events =>
    (timedWrite packet.encode events).1 = .completed ∨ (timedWrite packet.encode events).1 = .timedOut
  | _ => True

instance : (event : RecvEvent) → Decidable event.Timed
  | .ok _ _ => inferInstanceAs (Decidable (_ ∨ _))
  | .lagged _ | .closed => inferInstanceAs (Decidable True)

def Fits : RecvEvent → Prop
  | .ok packet _ => packet.Fits
  | _ => True

instance : (event : RecvEvent) → Decidable event.Fits
  | .ok packet _ => inferInstanceAs (Decidable packet.Fits)
  | .lagged _ | .closed => inferInstanceAs (Decidable True)

/-- The timer cuts the write off after the stream took at least one byte of the packet. -/
def Torn : RecvEvent → Prop
  | .ok packet events => (timedWrite packet.encode events).1 = .timedOut ∧ accepted events ≠ 0
  | _ => False

instance : (event : RecvEvent) → Decidable event.Torn
  | .ok _ _ => inferInstanceAs (Decidable (_ ∧ _))
  | .lagged _ | .closed => inferInstanceAs (Decidable False)

/-- Less than the whole packet was taken. -/
def Incomplete : RecvEvent → Prop
  | .ok packet events => accepted events < packet.encode.length
  | _ => True

instance : (event : RecvEvent) → Decidable event.Incomplete
  | .ok _ _ => inferInstanceAs (Decidable (_ < _))
  | .lagged _ | .closed => inferInstanceAs (Decidable True)

end RecvEvent

/-- A torn write is cut before its last byte, and nothing reaches the stream behind it. -/
structure CleanSchedule (schedule : List RecvEvent) : Prop where
  incomplete : ∀ event ∈ schedule, event.Torn → event.Incomplete
  last : schedule.Pairwise fun event later => event.Torn → later.taken = 0

/-! ### What a timed write leaves on the stream -/

variable {bytes : List UInt8} {events : List WriteEvent} {event : RecvEvent} {schedule : List RecvEvent}

theorem timedWrite_completed (hr : (timedWrite bytes events).1 = .completed) :
    (timedWrite bytes events).2 = bytes ∧ bytes.length ≤ accepted events := by
  induction events generalizing bytes with
  | nil => simp [timedWrite] at hr
  | cons event events ih =>
    cases event with
    | failed | elapsed => simp [timedWrite] at hr
    | ready =>
      cases bytes with
      | nil => exact ⟨rfl, Nat.zero_le _⟩
      | cons =>
        simp only [timedWrite] at hr ⊢
        split_ifs at hr ⊢ with hz
        obtain ⟨hw, ha⟩ := ih hr
        rw [length_drop] at ha
        rw [accepted]
        exact ⟨by rw [hw, take_append_drop], by omega⟩

theorem timedWrite_timedOut (hr : (timedWrite bytes events).1 = .timedOut) :
    (timedWrite bytes events).2 = bytes.take (accepted events) := by
  induction events generalizing bytes with
  | nil => simp [timedWrite] at hr
  | cons event events ih =>
    cases event with
    | failed => simp [timedWrite] at hr
    | elapsed => simp [timedWrite, accepted]
    | ready =>
      cases bytes with
      | nil => simp [timedWrite] at hr
      | cons =>
        simp only [timedWrite] at hr ⊢
        split_ifs at hr ⊢ with hz
        rw [ih hr, accepted, take_add]

theorem VideoSender.step_cases (name : String) (s : VideoSender) (ht : event.Timed) :
    ((s.step name event).stream = s.stream ∧ (s.step name event).sent = s.sent) ∨
    (∃ pkt events, event = .ok pkt events ∧ (timedWrite pkt.encode events).1 = .completed ∧
      (s.step name event).stream = s.stream ++ pkt.encode ∧
      (s.step name event).sent = s.sent ++ [pkt]) ∨
    ∃ pkt events, event = .ok pkt events ∧ (timedWrite pkt.encode events).1 = .timedOut ∧
      (s.step name event).stream = s.stream ++ pkt.encode.take (accepted events) ∧
      (s.step name event).sent = s.sent := by
  by_cases hp : s.phase ≠ .receiving
  · exact Or.inl ⟨by simp [step, if_pos hp], by simp [step, if_pos hp]⟩
  cases event with
  | lagged n | closed => exact Or.inl ⟨by simp [step, if_neg hp], by simp [step, if_neg hp]⟩
  | ok pkt events =>
    refine Or.inr ?_
    rcases ht with hr | hr
    · refine Or.inl ⟨pkt, events, rfl, hr, ?_, ?_⟩
      · simp [step, if_neg hp, hr, (timedWrite_completed hr).1]
      · simp [step, if_neg hp, hr]
    · refine Or.inr ⟨pkt, events, rfl, hr, ?_, ?_⟩
      · simp [step, if_neg hp, hr, timedWrite_timedOut hr]
      · simp [step, if_neg hp, hr]

theorem CleanSchedule.of_append (hc : CleanSchedule (schedule ++ [event])) : CleanSchedule schedule where
  incomplete := fun torn hmem => hc.incomplete torn (List.mem_append_left _ hmem)
  last := (pairwise_append.1 hc.last).1

/-- Where a write still gets a byte onto the stream, no write of a clean schedule was torn before. -/
theorem CleanSchedule.not_torn_before {torn : RecvEvent}
    (hc : CleanSchedule (schedule ++ [event])) (ht : event.taken ≠ 0)
    (hmem : torn ∈ schedule) : ¬torn.Torn := fun hto =>
  ht ((pairwise_append.1 hc.last).2.2 torn hmem event mem_cons_self hto)

theorem stream_of_clean (name : String) (schedule : List RecvEvent) (ht : ∀ event ∈ schedule, event.Timed)
    (hf : ∀ event ∈ schedule, event.Fits) (hc : CleanSchedule schedule) :
    ∃ tail, (streamVideoToViewer name schedule).stream =
        (streamVideoToViewer name schedule).sent.flatMap encode ++ tail ∧
      (∀ pkt ∈ (streamVideoToViewer name schedule).sent, pkt.Fits) ∧
      tryDecode tail = none ∧ (tail = [] ∨ ∃ event ∈ schedule, event.Torn) := by
  induction schedule using List.reverseRecOn with
  | nil => exact ⟨[], rfl, fun pkt hmem => absurd hmem not_mem_nil, rfl, Or.inl rfl⟩
  | append_singleton schedule event ih =>
    obtain ⟨tail, hs, hse, hta, hto⟩ := ih (fun e hmem => ht e (mem_append_left _ hmem))
      (fun e hmem => hf e (mem_append_left _ hmem)) hc.of_append
    have hl : event ∈ schedule ++ [event] := mem_append_right _ mem_cons_self
    have hst : streamVideoToViewer name (schedule ++ [event]) =
        (streamVideoToViewer name schedule).step name event := by
      simp [streamVideoToViewer]
    rw [hst]
    generalize streamVideoToViewer name schedule = s at hs hse ⊢
    -- A byte is only written on a stream that ends with a whole packet.
    have hw : event.taken ≠ 0 → tail = [] := fun htk =>
      hto.resolve_right fun ⟨torn, hmem, h⟩ => hc.not_torn_before htk hmem h
    have htoL : tail = [] ∨ ∃ torn ∈ schedule ++ [event], torn.Torn :=
      hto.imp_right fun ⟨torn, hmem, h⟩ => ⟨torn, mem_append_left _ hmem, h⟩
    rcases s.step_cases name (ht event hl) with
      ⟨hsa, hseS⟩ | ⟨pkt, events, rfl, hd, ha, hseA⟩ | ⟨pkt, events, rfl, hcu, ha, hseS⟩
    · rw [hsa, hseS]
      exact ⟨tail, hs, hse, hta, htoL⟩
    · have htk : accepted events ≠ 0 := by
        have hlen := (timedWrite_completed hd).2
        rw [encode_length, headerSize] at hlen
        omega
      have hnil := hw htk
      subst hnil
      refine ⟨[], ?_, ?_, rfl, Or.inl rfl⟩
      · rw [ha, hseA, hs]
        simp
      rw [hseA]
      intro other hmem
      rcases mem_append.1 hmem with ho | hn
      · exact hse other ho
      · rw [mem_singleton.1 hn]
        exact hf _ hl
    · rw [ha, hseS]
      by_cases hz : accepted events = 0
      · rw [hz, take_zero, append_nil]
        exact ⟨tail, hs, hse, hta, htoL⟩
      have hnil := hw hz
      subst hnil
      rw [hs, append_nil]
      refine ⟨pkt.encode.take (accepted events), rfl, hse, ?_, Or.inr ⟨_, hl, hcu, hz⟩⟩
      have hsh := hc.incomplete _ hl ⟨hcu, hz⟩
      have hr := tryDecode_encode pkt (hf _ hl) []
      rw [append_nil] at hr
      exact decode_take_eq_none tryDecode_streaming hr hsh

/-- **Framing of the video stream.** As long as no timer cuts a packet in two, except for one behind
which nothing more is written, the viewer decodes exactly the packets that were sent. -/
theorem framingHolds_of_clean (streamName : String) (schedule : List RecvEvent)
    (htimed : ∀ event ∈ schedule, event.Timed) (hfits : ∀ event ∈ schedule, event.Fits)
    (hclean : CleanSchedule schedule) : FramingHolds (streamVideoToViewer streamName schedule) := by
  obtain ⟨tail, hs, hse, ht, -⟩ := stream_of_clean streamName schedule htimed hfits hclean
  rw [FramingHolds, hs, decodeAll_flatMap_encode tryDecode_streaming _ _
    (fun pkt hmem => tryDecode_encode pkt (hse pkt hmem)) tail ht]

/-- Three packets; the timer of the second fires before its first byte is taken, that of the last
one behind its header. -/
def cleanSchedule : List RecvEvent :=
  [.ok ⟨.video, 40, 0, [0, 0, 0, 1, 0x26]⟩ [.ready 9, .ready 10, .ready 0],
    .ok ⟨.video, 80, 0, [0, 0, 0, 1, 0x02]⟩ [.elapsed],
    .lagged 3,
    .ok ⟨.video, 120, 0, [0, 0, 0, 1, 0x02]⟩ [.ready 15, .elapsed]]

theorem framingHolds_cleanSchedule : FramingHolds (streamVideoToViewer "main" cleanSchedule) :=
  framingHolds_of_clean "main" cleanSchedule (by decide) (by decide) ⟨by decide, by decide⟩

/-- The timer of the first packet fires behind its header and two bytes of its payload. -/
def tornSchedule : List RecvEvent :=
  [.ok ⟨.video, 40, 0, [0, 0, 0, 1, 0x26]⟩ [.ready 16, .elapsed],
    .ok ⟨.video, 80, 0, [0, 0, 0, 1, 0x02]⟩ [.ready 19, .ready 0]]

/-- The viewer takes the first three bytes of the second packet as the end of the first payload. -/
theorem not_framingHolds_tornSchedule : (∀ event ∈ tornSchedule, event.Timed) ∧ (∀ event ∈ tornSchedule, event.Fits) ∧
      ¬FramingHolds (streamVideoToViewer "main" tornSchedule) := by
  decide

end RustLibp2p.Camera
