import RustLibp2p.MediaPacket
import RustLibp2p.Transition

/-! The buffer between the receiver and the player. Each track is played in order, after a delay at first; a track that
holds too much skips frames, and video that is ahead of audio is held back. Durations are in nanoseconds. -/

namespace RustLibp2p.Camera
open List Transition Function

structure TrackBuffer where
  frames : List MediaPacket
  targetDelay : Nat
  maxSize : Nat
  lastPlayedTs : Option UInt64

namespace TrackBuffer

def new (targetDelay maxSize : Nat) : TrackBuffer := ⟨[], targetDelay, maxSize, none⟩

variable (buffer : TrackBuffer)

/-- What a full buffer keeps: it drops its oldest frame, or the newest one if the oldest is a key frame. -/
def makeRoom : List MediaPacket :=
  if buffer.maxSize ≤ buffer.frames.length then
    match buffer.frames with
    | [] => []
    | front :: rest => if isNalKeyframe front.data then (front :: rest).dropLast else rest
  else buffer.frames

def push (packet : MediaPacket) : TrackBuffer := { buffer with frames := buffer.makeRoom ++ [packet] }

def pushFront (packet : MediaPacket) : TrackBuffer := { buffer with frames := packet :: buffer.frames }

/-- The difference of the timestamps wraps around, as in a release build. -/
def bufferedDuration : Nat :=
  match buffer.frames.head?, buffer.frames.getLast? with
  | some first, some last =>
    if buffer.frames.length < 2 then 0 else (last.timestampMs - first.timestampMs).toNat * 1000000
  | _, _ => 0

/-- A buffer that holds too much skips to a key frame. -/
def catchUp : List MediaPacket :=
  if buffer.targetDelay * 2 < buffer.bufferedDuration then
    buffer.frames.dropWhile fun front => !isNalKeyframe front.data
  else buffer.frames

def popNext : Option MediaPacket × TrackBuffer :=
  if buffer.frames = [] then (none, buffer)
  else if buffer.lastPlayedTs = none ∧ buffer.bufferedDuration < buffer.targetDelay then (none, buffer)
  else
    match buffer.catchUp with
    | [] => (none, { buffer with frames := [] })
    | packet :: rest => (some packet, { buffer with frames := rest, lastPlayedTs := some packet.timestampMs })

def clear : TrackBuffer := { buffer with frames := [], lastPlayedTs := none }

end TrackBuffer

structure AvJitterBuffer where
  video : TrackBuffer
  audio : TrackBuffer

/-- In milliseconds. -/
def syncThreshold : Int := 50

/-- `as i64`. -/
def asI64 (ts : UInt64) : Int := Int.bmod ts.toNat (2 ^ 64)

namespace AvJitterBuffer

def new (videoDelay audioDelay : Nat) : AvJitterBuffer := ⟨.new videoDelay 60, .new audioDelay 200⟩

variable (buffer : AvJitterBuffer)

def ofTrack : MediaTrack → TrackBuffer
  | .video => buffer.video
  | .audio => buffer.audio

def push (packet : MediaPacket) : AvJitterBuffer :=
  match packet.track with
  | .video => { buffer with video := buffer.video.push packet }
  | .audio => { buffer with audio := buffer.audio.push packet }

/-- Video that is ahead of audio goes back, once both have been played. -/
def nextVideo : Option MediaPacket × AvJitterBuffer :=
  match buffer.video.popNext with
  | (none, video) => (none, { buffer with video := video })
  | (some packet, video) =>
    match buffer.video.lastPlayedTs, buffer.audio.lastPlayedTs with
    | some _, some audioTs =>
      if syncThreshold < (asI64 packet.timestampMs - asI64 audioTs).bmod (2 ^ 64) then
        (none, { buffer with video := video.pushFront packet })
      else (some packet, { buffer with video := video })
    | _, _ => (some packet, { buffer with video := video })

def nextAudio : Option MediaPacket × AvJitterBuffer :=
  let (packet, audio) := buffer.audio.popNext
  (packet, { buffer with audio := audio })

def clear : AvJitterBuffer := ⟨buffer.video.clear, buffer.audio.clear⟩

end AvJitterBuffer

inductive JitterCall where
  | push (packet : MediaPacket)
  | nextVideo
  | nextAudio
  | clear

/-- The buffer, with the frames that were pushed and returned on each track since it was cleared. -/
structure JitterRun where
  buffer : AvJitterBuffer
  pushed : MediaTrack → List MediaPacket
  returned : MediaTrack → List MediaPacket

namespace JitterRun

def new (buffer : AvJitterBuffer) : JitterRun := ⟨buffer, fun _ => [], fun _ => []⟩

def took (run : JitterRun) (track : MediaTrack) (next : Option MediaPacket × AvJitterBuffer) :
    Option MediaPacket × JitterRun :=
  (next.1, ⟨next.2, run.pushed, update run.returned track (run.returned track ++ next.1.toList)⟩)

def exec (run : JitterRun) : JitterCall → Option MediaPacket × JitterRun
  | .push packet => (none, { run with
      buffer := run.buffer.push packet
      pushed := update run.pushed packet.track (run.pushed packet.track ++ [packet]) })
  | .nextVideo => run.took .video run.buffer.nextVideo
  | .nextAudio => run.took .audio run.buffer.nextAudio
  | .clear => (none, new run.buffer.clear)

end JitterRun

/-- The frames that were returned and those that wait are among those that were pushed, in order. -/
structure TrackBuffer.Keeps (buffer : TrackBuffer) (size : Nat) (pushed returned : List MediaPacket) : Prop where
  frames : returned ++ buffer.frames <+ pushed
  maxSize : buffer.maxSize = size
  length : buffer.frames.length ≤ size
  played : buffer.lastPlayedTs = none → returned = []

namespace TrackBuffer

variable (buffer : TrackBuffer)

theorem makeRoom_spec (hpos : 0 < buffer.maxSize) (hf : buffer.frames.length ≤ buffer.maxSize) :
    buffer.makeRoom <+ buffer.frames ∧ buffer.makeRoom.length < buffer.maxSize := by
  unfold makeRoom
  split
  · cases hfr : buffer.frames with
    | nil => exact ⟨.refl _, hpos⟩
    | cons =>
      rw [hfr] at hf
      dsimp only
      split
      · exact ⟨dropLast_sublist _, length_dropLast.trans_lt hf⟩
      · exact ⟨sublist_cons_self _ _, hf⟩
  · next hr => exact ⟨.refl _, Nat.not_le.1 hr⟩

theorem catchUp_sublist : buffer.catchUp <+ buffer.frames := by
  unfold catchUp
  split
  · exact dropWhile_sublist _
  · exact .refl _

theorem popNext_cases : buffer.popNext.1.toList ++ buffer.popNext.2.frames <+ buffer.frames ∧
    buffer.popNext.2.maxSize = buffer.maxSize ∧
    buffer.popNext.2.lastPlayedTs = (buffer.popNext.1.map MediaPacket.timestampMs).or buffer.lastPlayedTs := by
  have hsub := buffer.catchUp_sublist
  unfold popNext
  split_ifs
  · exact ⟨.refl _, rfl, rfl⟩
  · exact ⟨.refl _, rfl, rfl⟩
  split
  · exact ⟨nil_sublist _, rfl, rfl⟩
  · next heq =>
    rw [heq] at hsub
    exact ⟨hsub, rfl, rfl⟩

variable {buffer} {after : TrackBuffer} {pushed returned new : List MediaPacket} {size : Nat}

section

variable (hk : buffer.Keeps size pushed returned)
include hk

theorem Keeps.push (hpos : 0 < size) (pkt : MediaPacket) :
    (buffer.push pkt).Keeps size (pushed ++ [pkt]) returned := by
  obtain ⟨hf, rfl, hlen, hp⟩ := hk
  obtain ⟨hsub, hr⟩ := buffer.makeRoom_spec hpos hlen
  refine ⟨?_, rfl, length_append.trans_le hr, hp⟩
  show returned ++ (buffer.makeRoom ++ [pkt]) <+ _
  rw [← append_assoc]
  exact ((hsub.append_left _).trans hf).append (.refl _)

theorem Keeps.take (hf : new ++ after.frames <+ buffer.frames)
    (hs : after.maxSize = buffer.maxSize) (hp : after.lastPlayedTs = none → returned ++ new = []) :
    after.Keeps size pushed (returned ++ new) := by
  refine ⟨?_, hs.trans hk.maxSize, ?_, hp⟩
  · rw [append_assoc]
    exact (hf.append_left _).trans hk.frames
  · exact ((sublist_append_right _ _).trans hf).length_le.trans hk.length

theorem Keeps.popNext :
    buffer.popNext.2.Keeps size pushed (returned ++ buffer.popNext.1.toList) := by
  obtain ⟨hf, hs, hp⟩ := buffer.popNext_cases
  refine hk.take hf hs fun hn => ?_
  rw [hp, Option.or_eq_none_iff, Option.map_eq_none_iff] at hn
  rw [hn.1, hk.played hn.2]
  rfl

end

theorem bufferedDuration_of_sorted {oldest newest : MediaPacket}
    (hs : buffer.frames.Pairwise fun p q => p.timestampMs ≤ q.timestampMs)
    (ho : buffer.frames.head? = some oldest) (hn : buffer.frames.getLast? = some newest) :
    oldest.timestampMs ≤ newest.timestampMs ∧ buffer.bufferedDuration =
      (newest.timestampMs.toNat - oldest.timestampMs.toNat) * 1000000 := by
  obtain ⟨rest, hf⟩ := head?_eq_some_iff.1 ho
  cases rest with
  | nil =>
    obtain rfl : oldest = newest := by simpa [hf] using hn
    exact ⟨UInt64.le_refl _, by simp [bufferedDuration, hf]⟩
  | cons =>
    rw [hf, getLast?_cons_cons] at hn
    rw [hf] at hs
    have hle := (pairwise_cons.1 hs).1 newest (mem_of_getLast? hn)
    exact ⟨hle, by simp [bufferedDuration, hf, hn, UInt64.toNat_sub_of_le _ _ hle]⟩

def keyframes (frames : List MediaPacket) : Nat := frames.countP fun frame => isNalKeyframe frame.data

/-- A push drops a key frame though a frame waits that is none. -/
def DropsKeyframe (buffer : TrackBuffer) (packet : MediaPacket) : Prop :=
  (∃ frame ∈ buffer.frames, isNalKeyframe frame.data = false) ∧
    keyframes (buffer.push packet).frames < keyframes (buffer.frames ++ [packet])

/-- A push does so only if the buffer is full, and its oldest and its newest frame are key frames. -/
theorem dropsKeyframe_iff (buffer : TrackBuffer) (packet : MediaPacket) : buffer.DropsKeyframe packet ↔
    (∃ frame ∈ buffer.frames, isNalKeyframe frame.data = false) ∧ buffer.maxSize ≤ buffer.frames.length ∧
      (∃ front ∈ buffer.frames.head?, isNalKeyframe front.data = true) ∧
      ∃ back ∈ buffer.frames.getLast?, isNalKeyframe back.data = true := by
  refine and_congr_right fun _ => ?_
  unfold keyframes push makeRoom
  rw [countP_append, countP_append, Nat.add_lt_add_iff_right]
  by_cases hf : buffer.maxSize ≤ buffer.frames.length
  · rw [if_pos hf]
    cases hfr : buffer.frames with
    | nil => simp
    | cons front rest =>
      rw [hfr, length_cons] at hf
      by_cases hfo : isNalKeyframe front.data = true
      · have hl := congrArg keyframes (dropLast_concat_getLast (cons_ne_nil front rest))
        rw [keyframes, keyframes, countP_append, countP_singleton] at hl
        rw [getLast?_eq_some_getLast (cons_ne_nil front rest), ← hl]
        simp [hfo, hf, Nat.pos_iff_ne_zero]
      · simp [hfo]
  · simp [hf]

end TrackBuffer

namespace AvJitterBuffer

variable {buffer : AvJitterBuffer}

theorem nextVideo_keeps {size : Nat} {pushed returned : List MediaPacket}
    (hk : buffer.video.Keeps size pushed returned) : buffer.nextVideo.2.audio = buffer.audio ∧
    buffer.nextVideo.2.video.Keeps size pushed (returned ++ buffer.nextVideo.1.toList) := by
  have hp := hk.popNext
  obtain ⟨hf, hs, hpl⟩ := buffer.video.popNext_cases
  unfold nextVideo
  generalize buffer.video.popNext = popped at hp hf hs hpl ⊢
  obtain ⟨pkt, video⟩ := popped
  cases pkt with
  | none => exact ⟨rfl, hp⟩
  | some =>
    dsimp only
    split
    · split
      · refine ⟨rfl, hk.take hf hs fun hn => ?_⟩
        cases hpl.symm.trans hn
      · exact ⟨rfl, hp⟩
    · exact ⟨rfl, hp⟩

/-- The frame that is returned is not ahead of the sound. -/
theorem nextVideo_sync {frame : MediaPacket} {audioTs : UInt64} (hn : buffer.nextVideo.1 = some frame)
    (hv : buffer.video.lastPlayedTs ≠ none) (ha : buffer.audio.lastPlayedTs = some audioTs) :
    (asI64 frame.timestampMs - asI64 audioTs).bmod (2 ^ 64) ≤ syncThreshold := by
  obtain ⟨_, hp⟩ := Option.ne_none_iff_exists'.mp hv
  unfold nextVideo at hn
  rw [hp, ha] at hn
  split at hn
  · cases hn
  dsimp only at hn
  split_ifs at hn with hah
  cases hn
  exact Int.not_lt.1 hah

end AvJitterBuffer

namespace JitterRun

structure Keeps (run : JitterRun) : Prop where
  video : run.buffer.video.Keeps 60 (run.pushed .video) (run.returned .video)
  audio : run.buffer.audio.Keeps 200 (run.pushed .audio) (run.returned .audio)
  lastAudio : run.buffer.audio.lastPlayedTs = (run.returned .audio).getLast?.map MediaPacket.timestampMs

theorem Keeps.exec {run : JitterRun} (hk : run.Keeps) (call : JitterCall) : (run.exec call).2.Keeps := by
  obtain ⟨hv, ha, hl⟩ := hk
  cases call with
  | push pkt =>
    obtain ⟨track, _, _, _⟩ := pkt
    cases track with
    | video => exact ⟨hv.push (by decide) _, ha, hl⟩
    | audio => exact ⟨hv, ha.push (by decide) _, hl⟩
  | nextVideo =>
    obtain ⟨hs, hn⟩ := AvJitterBuffer.nextVideo_keeps hv
    rw [← hs] at ha hl
    exact ⟨hn, ha, hl⟩
  | nextAudio =>
    obtain ⟨-, -, hp⟩ := run.buffer.audio.popNext_cases
    refine ⟨hv, ha.popNext, hp.trans ?_⟩
    rw [hl]
    show _ = (run.returned .audio ++ run.buffer.audio.popNext.1.toList).getLast?.map _
    cases run.buffer.audio.popNext.1 <;> simp
  | clear =>
    exact ⟨⟨.refl _, hv.maxSize, Nat.zero_le _, fun _ => rfl⟩, ⟨.refl _, ha.maxSize, Nat.zero_le _, fun _ => rfl⟩, rfl⟩

theorem keeps_run (videoDelay audioDelay : Nat) (calls : List JitterCall) :
    Keeps (runTotal exec (new (.new videoDelay audioDelay)) calls).2 :=
  runTotal_history (fun _ run call (hk : Keeps run) => hk.exec call) calls []
    ⟨⟨.refl _, rfl, Nat.zero_le _, fun _ => rfl⟩, ⟨.refl _, rfl, Nat.zero_le _, fun _ => rfl⟩, rfl⟩

/-- In every run the frames that were returned for a track since the buffer was cleared are among those pushed, in order
and each once, neither track holds more than it may, and when both have been played no video frame is returned that is
more than 50 ms ahead of the last audio frame. -/
theorem run_jitter_buffer (videoDelay audioDelay : Nat) (calls : List JitterCall) :
    ∃ frames last, runTotal exec (new (.new videoDelay audioDelay)) calls = (frames, last) ∧
      (∀ track, last.returned track <+ last.pushed track) ∧
      last.buffer.video.frames.length ≤ 60 ∧ last.buffer.audio.frames.length ≤ 200 ∧
      ∀ frame audio, last.buffer.nextVideo.1 = some frame → last.returned .video ≠ [] →
        (last.returned .audio).getLast? = some audio → frame.timestampMs.toNat < 2 ^ 63 →
        audio.timestampMs.toNat < 2 ^ 63 → frame.timestampMs.toNat ≤ audio.timestampMs.toNat + 50 := by
  have hk := keeps_run videoDelay audioDelay calls
  generalize runTotal exec (new (.new videoDelay audioDelay)) calls = output at hk ⊢
  obtain ⟨hv, ha, hl⟩ := hk
  refine ⟨_, _, rfl, ?_, hv.length, ha.length, ?_⟩
  · intro track
    cases track with
    | video => exact (sublist_append_left _ _).trans hv.frames
    | audio => exact (sublist_append_left _ _).trans ha.frames
  · intro _ audio hn hp hh _ ha
    rw [hh] at hl
    have hs := AvJitterBuffer.nextVideo_sync hn (fun hno => hp (hv.played hno)) hl
    unfold asI64 syncThreshold at hs
    grind [Int.bmod_def]

/-- In every run, if the timestamps that were pushed on a track since the buffer was cleared do not decrease, the
difference of those at its ends does not underflow, and is its duration. -/
theorem run_buffered_duration (videoDelay audioDelay : Nat) (calls : List JitterCall) :
    ∃ frames last, runTotal exec (new (.new videoDelay audioDelay)) calls = (frames, last) ∧
      ∀ track, (last.pushed track).Pairwise (fun p q => p.timestampMs ≤ q.timestampMs) →
        ∀ oldest newest, (last.buffer.ofTrack track).frames.head? = some oldest →
          (last.buffer.ofTrack track).frames.getLast? = some newest → oldest.timestampMs ≤ newest.timestampMs ∧
            (last.buffer.ofTrack track).bufferedDuration =
              (newest.timestampMs.toNat - oldest.timestampMs.toNat) * 1000000 := by
  obtain ⟨hv, ha, -⟩ := keeps_run videoDelay audioDelay calls
  refine ⟨_, _, rfl, fun track hp oldest newest => TrackBuffer.bufferedDuration_of_sorted (hp.sublist ?_)⟩
  cases track with
  | video => exact (sublist_append_right _ _).trans hv.frames
  | audio => exact (sublist_append_right _ _).trans ha.frames

/-- A restarted camera sends a smaller timestamp. -/
theorem duration_wraps_restarted :
    (runTotal exec (new (.new 0 0)) [.push ⟨.video, 5, 0, []⟩,
      .push ⟨.video, 3, 0, []⟩]).2.buffer.video.bufferedDuration = (2 ^ 64 - 2) * 1000000 := rfl

/-- A frame is pushed on a track of key frames only, or one with room, or one with an end that is no key frame. -/
def Spares (run : JitterRun) : JitterCall → Prop
  | .push packet =>
    let buffer := run.buffer.ofTrack packet.track
    (∀ frame ∈ buffer.frames, isNalKeyframe frame.data = true) ∨ buffer.frames.length < buffer.maxSize ∨
      (∀ front ∈ buffer.frames.head?, isNalKeyframe front.data = false) ∨
      ∀ back ∈ buffer.frames.getLast?, isNalKeyframe back.data = false
  | _ => True

/-- In a run no push drops a key frame though another frame waits, if and only if every push finds room, or an end
of the buffer that is no key frame, or nothing but key frames. -/
theorem run_spares_keyframes (start : JitterRun) (calls : List JitterCall) :
    AlongTotal exec (fun run call => ∀ packet, call = .push packet →
        ¬(run.buffer.ofTrack packet.track).DropsKeyframe packet) start calls ↔
      AlongTotal exec Spares start calls := by
  refine alongTotal_congr fun run call => ?_
  cases call with
  | push packet =>
    simp only [JitterCall.push.injEq, forall_eq', TrackBuffer.dropsKeyframe_iff, Spares, not_and_or, not_exists,
      not_le, Bool.not_eq_true, Bool.not_eq_false]
    simp only [imp_iff_not_or]
  | nextVideo | nextAudio | clear => simp [Spares]

/-- The key frame that a full buffer drops is its newest frame. -/
theorem drops_keyframe_full :
    (runTotal exec (new (.new 0 0)) (.push ⟨.video, 0, 0, [0, 0, 0, 1, 0x26]⟩ ::
      replicate 58 (.push ⟨.video, 0, 0, []⟩) ++
        [.push ⟨.video, 0, 0, [0, 0, 0, 1, 0x26]⟩])).2.buffer.video.DropsKeyframe ⟨.video, 0, 0, []⟩ := by
  unfold TrackBuffer.DropsKeyframe
  decide +kernel

end JitterRun
end RustLibp2p.Camera
