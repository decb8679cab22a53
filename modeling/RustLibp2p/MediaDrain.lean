import Mathlib.Data.List.Infix
import Mathlib.Data.List.ReduceOption
import RustLibp2p.MediaPacket
import RustLibp2p.Transition

/-! The channel from the receivers of a viewer to its player, and the drain to the latest key frame. The
receivers push also while the drain takes the packets out and puts the kept ones back. -/

namespace RustLibp2p.Camera
open List Transition

/-- How far the drain is. With nothing to put back the viewer is free to poll. -/
inductive DrainPhase where
  | taking (frames : List MediaPacket)
  | putting (kept : List MediaPacket)

/-- The last three fields are history: the packets pushed, those polled since the last drain began, and whether a key
frame was queued then. -/
structure VideoChannel where
  queue : List MediaPacket
  phase : DrainPhase
  arrived : List MediaPacket
  recent : List MediaPacket
  keyframeQueued : Bool

inductive ChannelInput where
  | push (packet : MediaPacket)
  | poll
  -- the next access of the drain, while the receivers hold places that they have not filled
  | drain (held : Nat)

/-- The packets from the last key frame on. -/
def fromLastKeyframe (frames : List MediaPacket) : List MediaPacket :=
  (frames.tails.reverse.find? (·.head?.any (·.isKeyframe))).getD []

namespace VideoChannel

def drainToLatestKeyframe (capacity held : Nat) (channel : VideoChannel) : VideoChannel :=
  match channel.phase, channel.queue with
  | .putting [], queue => { channel with phase := .taking [], recent := [], keyframeQueued := queue.any (·.isKeyframe) }
  | .taking frames, packet :: rest => { channel with phase := .taking (frames ++ [packet]), queue := rest }
  | .taking frames, [] => { channel with phase := .putting (fromLastKeyframe frames) }
  | .putting (packet :: rest), queue =>
    if held + queue.length < capacity then { channel with phase := .putting rest, queue := queue ++ [packet] }
    else { channel with phase := .putting [] }

def step (capacity : Nat) (channel : VideoChannel) : ChannelInput → Option MediaPacket × VideoChannel
  | .push packet => (none, if channel.queue.length < capacity then
      { channel with queue := channel.queue ++ [packet], arrived := channel.arrived ++ [packet] } else channel)
  | .poll => match channel.phase, channel.queue with
    | .putting [], packet :: rest => (some packet, { channel with queue := rest, recent := channel.recent ++ [packet] })
    | _, _ => (none, channel)
  | .drain held => (none, channel.drainToLatestKeyframe capacity held)

/-- No packet is pushed among those put back, and the first of those finds room. -/
def undisturbed (capacity : Nat) (channel : VideoChannel) (input : ChannelInput) : Bool :=
  match channel.phase, input, channel.queue with
  | .putting (_ :: _), .push _, _ => false
  | .putting (_ :: _), .drain held, [] => held < capacity
  | _, _, _ => true

/-- The packets to be polled, in their order if nothing is pushed among those put back. -/
def pending (channel : VideoChannel) : List MediaPacket :=
  match channel.phase with
  | .taking frames => frames ++ channel.queue
  | .putting kept => channel.queue ++ kept

/-- Where the key frame is that the last drain began with. -/
def Opening (recent queue : List MediaPacket) : DrainPhase → Prop
  | .taking frames => recent = [] ∧ ∃ packet ∈ frames ++ queue, packet.isKeyframe
  | .putting kept => ∃ packet, packet.isKeyframe ∧ ((recent ++ queue).find? (·.track = .video) = some packet ∨
      recent ++ queue = [] ∧ kept.head? = some packet)

structure Ordered (past : List (Option MediaPacket)) (channel : VideoChannel) : Prop where
  order : past.reduceOption ++ channel.pending <+ channel.arrived
  opening : channel.keyframeQueued = true → Opening channel.recent channel.queue channel.phase

variable {capacity : Nat} {channel after : VideoChannel} {past : List (Option MediaPacket)}
  {output : Option MediaPacket} {packet : MediaPacket}

theorem fromLastKeyframe_cases (frames : List MediaPacket) :
    (fromLastKeyframe frames = [] ∧ ∀ packet ∈ frames, ¬ packet.isKeyframe) ∨
    ∃ packet rest, fromLastKeyframe frames = packet :: rest ∧ packet.isKeyframe ∧ packet :: rest <:+ frames := by
  rw [fromLastKeyframe]
  cases hf : frames.tails.reverse.find? (·.head?.any (·.isKeyframe)) with
  | none =>
    refine .inl ⟨rfl, fun packet hp hk => ?_⟩
    obtain ⟨pre, rest, rfl⟩ := append_of_mem hp
    exact find?_eq_none.1 hf _ (mem_reverse.2 ((mem_tails _ _).2 (suffix_append pre (packet :: rest)))) hk
  | some kept =>
    have hh := find?_some hf
    cases kept with
    | nil => cases hh
    | cons packet rest =>
      exact .inr ⟨packet, rest, rfl, hh, (mem_tails _ _).1 (mem_reverse.1 (mem_of_find?_eq_some hf))⟩

namespace Opening

variable {recent queue : List MediaPacket}

theorem append {kept rest more : List MediaPacket} (ho : Opening recent queue (.putting kept))
    (hm : ∀ packet, kept.head? = some packet → more.head? = some packet) :
    Opening recent (queue ++ more) (.putting rest) := by
  obtain ⟨first, hk, hf⟩ := ho
  refine ⟨first, hk, .inl ?_⟩
  rw [← append_assoc]
  rcases hf with hfo | ⟨hn, hh⟩
  · rw [find?_append, hfo]
    rfl
  obtain ⟨_, rfl⟩ := head?_eq_some_iff.1 (hm first hh)
  rw [MediaPacket.isKeyframe, Bool.and_eq_true, beq_iff_eq] at hk
  rw [hn]
  exact find?_cons_of_pos (decide_eq_true hk.1)

theorem isKeyframe {phase : DrainPhase} (ho : Opening recent queue phase)
    (hp : recent.find? (·.track = .video) = some packet) : packet.isKeyframe := by
  cases phase with
  | taking =>
    rw [ho.1] at hp
    cases hp
  | putting =>
    obtain ⟨_, hk, hf | ⟨hn, -⟩⟩ := ho
    · rw [find?_append, hp] at hf
      cases hf
      exact hk
    · rw [(append_eq_nil_iff.1 hn).1] at hp
      cases hp

end Opening

namespace Ordered

theorem next (ho : Ordered past channel) (hp : output.toList ++ after.pending <+ channel.pending)
    (ha : after.arrived = channel.arrived)
    (hop : after.keyframeQueued → Opening after.recent after.queue after.phase) :
    Ordered (past ++ [output]) after := by
  refine ⟨?_, hop⟩
  rw [reduceOption_append, reduceOption_singleton, append_assoc, ha]
  exact ((Sublist.refl _).append hp).trans ho.order

theorem push (ho : Ordered past channel) (hp : after.pending = channel.pending ++ [packet])
    (ha : after.arrived = channel.arrived ++ [packet])
    (hop : after.keyframeQueued → Opening after.recent after.queue after.phase) :
    Ordered (past ++ [none]) after := by
  refine ⟨?_, hop⟩
  rw [reduceOption_append, reduceOption_singleton, Option.toList_none, append_nil, hp, ha, ← append_assoc]
  exact ho.order.append (.refl _)

theorem step (ho : Ordered past channel) (inp : ChannelInput) (hi : channel.undisturbed capacity inp) :
    Ordered (past ++ [(channel.step capacity inp).1]) (channel.step capacity inp).2 := by
  have hs : Ordered (past ++ [none]) channel := ho.next (.refl _) rfl ho.opening
  have hop := ho.opening
  obtain ⟨queue, phase, _, _, _⟩ := channel
  cases inp with
  | push =>
    simp [step]
    split
    · rcases phase with frames | (_ | _)
      · refine ho.push (append_assoc _ _ _).symm rfl fun hq => (hop hq).imp_right ?_
        rintro ⟨first, hf, hk⟩
        exact ⟨first, append_assoc frames queue _ ▸ mem_append_left _ hf, hk⟩
      · refine ho.push (by simp [pending]) rfl fun hq => ?_
        exact (hop hq).append nofun
      · cases hi
    · exact hs
  | poll =>
    rcases phase with _ | (_ | _)
    · exact hs
    · cases queue with
      | nil => exact hs
      | cons =>
        refine ho.next (.refl _) rfl fun hq => ?_
        have hon := hop hq
        rw [Opening, append_cons] at hon
        exact hon
    · exact hs
  | drain =>
    rcases phase with frames | (_ | ⟨packet, rest⟩)
    · cases queue with
      | cons packet rest =>
        have hp : frames ++ [packet] ++ rest = frames ++ packet :: rest := (append_cons _ _ _).symm
        refine ho.next (hp ▸ .refl _) rfl fun hq => ?_
        exact (hop hq).imp_right fun hfo => hp ▸ hfo
      | nil =>
        rcases fromLastKeyframe_cases frames with ⟨hke, hn⟩ | ⟨packet, rest, hke, hk, hsu⟩ <;>
          simp [step, drainToLatestKeyframe, hke]
        · refine ho.next (nil_sublist _) rfl fun hq => ?_
          obtain ⟨-, packet, hpa, hk⟩ := hop hq
          exact absurd hk (hn packet (append_nil frames ▸ hpa))
        · refine ho.next (hsu.sublist.trans (sublist_append_left _ _)) rfl fun hq => ?_
          exact ⟨packet, hk, .inr ⟨append_eq_nil_iff.2 ⟨(hop hq).1, rfl⟩, rfl⟩⟩
    · exact ho.next (sublist_append_left _ _) rfl fun hq => ⟨rfl, any_eq_true.1 hq⟩
    simp [step, drainToLatestKeyframe]
    split
    · refine ho.next (append_cons queue packet rest ▸ .refl _) rfl fun hq => ?_
      exact (hop hq).append fun _ => id
    · next hfu =>
      refine ho.next ((append_nil queue).symm ▸ sublist_append_left _ _) rfl fun hq => ?_
      obtain ⟨first, hk, hf | ⟨hn, -⟩⟩ := hop hq
      · exact ⟨first, hk, .inl hf⟩
      · obtain ⟨-, rfl⟩ := append_eq_nil_iff.1 hn
        exact absurd (of_decide_eq_true hi) hfu

end Ordered

def new : VideoChannel := ⟨[], .putting [], [], [], false⟩

/-- In every undisturbed run the packets are polled as they arrived, and the first video packet polled after a drain
that began with a key frame queued is a key frame. -/
theorem undisturbed_in_order (capacity : Nat) (inputs : List ChannelInput)
    (hundisturbed : Transition.AlongTotal (step capacity) (fun channel input => channel.undisturbed capacity input) new
      inputs) : ∃ polled channel, runTotal (step capacity) new inputs = (polled, channel) ∧
      polled.reduceOption <+ channel.arrived ∧ (channel.keyframeQueued = true →
        ∀ packet, channel.recent.find? (·.track = .video) = some packet → packet.isKeyframe) := by
  have hn : Ordered [] new := ⟨.refl _, fun hq => absurd hq Bool.false_ne_true⟩
  have hs : ∀ past (channel : VideoChannel) input, Ordered past channel → channel.undisturbed capacity input →
      Ordered (past ++ [(channel.step capacity input).1]) (channel.step capacity input).2 :=
    fun _ _ input ho => ho.step input
  have ho := runTotal_along hs inputs [] hn hundisturbed
  exact ⟨_, _, rfl, (sublist_append_left _ _).trans ho.order, fun hq packet hp => (ho.opening hq).isKeyframe hp⟩

/-- A key frame and the video packet after it. -/
def keyframe : MediaPacket := ⟨.video, 0, flagVideoKeyframe, []⟩
def following : MediaPacket := ⟨.video, 40, 0, []⟩

theorem undisturbed_in_order_drained : ∃ polled channel,
    runTotal (step 60) new [.push following, .push keyframe, .drain 0, .drain 0, .drain 0, .drain 0,
      .drain 0, .push following, .poll] = (polled, channel) ∧ polled.reduceOption <+ channel.arrived ∧
      (channel.keyframeQueued = true →
        ∀ packet, channel.recent.find? (·.track = .video) = some packet → packet.isKeyframe) :=
  undisturbed_in_order 60 _ (by decide)

/-- The drain has taken a key frame out when the next packet is pushed, and puts it back behind that packet. -/
theorem drain_overtaken : ∃ polled channel,
    runTotal (step 60) new [.push keyframe, .drain 0, .drain 0, .drain 0, .push following, .drain 0, .poll,
      .poll] = (polled, channel) ∧ ¬ polled.reduceOption <+ channel.arrived ∧ channel.keyframeQueued = true ∧
      channel.recent.find? (·.track = .video) = some following ∧ ¬ following.isKeyframe :=
  ⟨_, _, rfl, by decide, rfl, rfl, by decide⟩

end VideoChannel
end RustLibp2p.Camera
