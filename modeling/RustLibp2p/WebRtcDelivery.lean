import RustLibp2p.WebRtcStream
import Mathlib.Data.List.TakeWhile

/-! What a user reads from a stream, against what the remote sent. Messages arrive and the channel may end at any
time between the user's calls; the user reads and writes and closes neither half. -/

namespace RustLibp2p.WebRtc

open Transition List WebRtc.Frame Outcome
open PollIo (Poll)

def Frame.payload (frame : Frame) : List UInt8 := frame.message.getD []

def payloads (frames : List Frame) : List UInt8 := frames.flatMap payload

/-- The messages up to and including the first one with the flag `Fin`. -/
def upToFin : List Frame → List Frame
  | [] => []
  | frame :: frames => if frame.flag = some .fin then [frame] else frame :: upToFin frames

/-- The message brings data and leaves the stream open for reading. -/
def Frame.plain (frame : Frame) : Bool := frame.payload ≠ [] && frame.flag ≠ some .fin

def frameOf (item : Item) : Option Frame := (decodeItem item).toOption

/-- The messages that arrive before the channel ends. -/
def received : List Call → List Frame
  | [] => []
  | .arrive item :: calls => (frameOf item).toList ++ received calls
  | .channelEnd :: _ => []
  | _ :: calls => received calls

def Outcome.data : Outcome → List UInt8
  | .read (.ready (.ok bytes)) _ => bytes
  | _ => []

/-- The call reports the end of the stream or an error to the reader. -/
def Outcome.ends : Outcome → Bool
  | .read (.ready (.ok bytes)) _ => bytes = []
  | .read (.ready (.error _)) _ => true
  | _ => false

/-- The call took a message with the flag `StopSending` from the channel. -/
def Outcome.tookStopSending : Outcome → Bool
  | .read _ taken => taken.any fun item => (frameOf item).any fun frame => frame.flag = some .stopSending
  | _ => false

/-- The data that is read before the first report of the end or of an error. -/
def delivered : List Outcome → List UInt8
  | [] => []
  | outcome :: outcomes => if outcome.ends then [] else outcome.data ++ delivered outcomes

def firstEnd (outcomes : List Outcome) : Option Outcome := outcomes.find? ends

/-- A call of a reader, or the arrival of a message without a reset. -/
def Call.reading : Call → Bool
  | .arrive item => (frameOf item).any fun frame => frame.flag ≠ some .reset
  | .channelEnd => true
  | .pollRead len => 0 < len
  | .pollWrite _ _ => true
  | .pollClose _ => false
  | .pollCloseRead _ => false

variable {result : Poll (Except IoError (List UInt8))} {frame : Frame}

namespace Stream

/-- The user can read, and what has arrived are messages without a reset. -/
structure Live (stream : Stream) : Prop where
  state : stream.state = .opened ∨ stream.state = .writeClosed
  incoming : ∀ item ∈ stream.io.incoming, ∃ frame, decodeItem item = .ok frame ∧ frame.flag ≠ some .reset

/-- The messages that are still to be read. -/
def ahead (stream : Stream) (calls : List Call) : List Frame :=
  stream.io.incoming.filterMap frameOf ++ if stream.io.ended then [] else received calls

inductive ReadStep (stream after : Stream) : Poll (Except IoError (List UInt8)) → List Item → Prop where
  | pending (hbuffer : stream.readBuffer = []) (hincoming : stream.io.incoming = []) (hended : stream.io.ended = false)
      (hafter : after = stream) : ReadStep stream after .pending []
  /-- Data is read, from the buffer or from a message that brings some. -/
  | data {bytes : List UInt8} {taken : List Item} (hbytes : bytes ≠ []) (hlive : after.Live)
      (hended : after.io.ended = stream.io.ended) (hincoming : stream.io.incoming = taken ++ after.io.incoming)
      (hplain : ∀ frame ∈ taken.filterMap frameOf, frame.plain)
      (hread : stream.readBuffer ++ payloads (taken.filterMap frameOf) = bytes ++ after.readBuffer) :
      ReadStep stream after (.ready (.ok bytes)) taken
  | ended {result : Except IoError (List UInt8)} {item : Item} {rest : List Item} {frame : Frame}
      (hresult : ∀ bytes, result = .ok bytes → bytes = []) (hbuffer : stream.readBuffer = [])
      (hincoming : stream.io.incoming = item :: rest) (hframe : decodeItem item = .ok frame)
      (hplain : frame.plain = false) : ReadStep stream after (.ready result) [item]
  | channelEnd (hbuffer : stream.readBuffer = []) (hincoming : stream.io.incoming = [])
      (hended : stream.io.ended = true) : ReadStep stream after (.ready (.ok [])) []

variable {stream : Stream} {calls : List Call} {outcomes : List Outcome} {taken : List Item}

theorem pollReadLoop_of_error {err : IoError} (hb : stream.state.readBarrier = .error err) (len : Nat)
    (items : List Item) : stream.pollReadLoop len items = some (.ready (.error err), stream.withIncoming items) := by
  have hr : (stream.withIncoming items).readReady len = some (.error err, stream.withIncoming items) := by
    simp [readReady, withIncoming, hb]
  rw [pollReadLoop.eq_def, hr]

theorem pollReadLoop_of_buffer (hb : stream.state.readBarrier = .ok ()) (hbu : stream.readBuffer ≠ [])
    (len : Nat) (items : List Item) : stream.pollReadLoop len items = some (.ready (.ok (stream.readBuffer.take len)),
      (stream.withIncoming items).withBuffer (stream.readBuffer.drop len)) := by
  have hr : (stream.withIncoming items).readReady len = some (.ok (stream.readBuffer.take len),
      (stream.withIncoming items).withBuffer (stream.readBuffer.drop len)) := by
    simp only [readReady, withIncoming, hb]
    exact if_neg hbu
  rw [pollReadLoop.eq_def, hr]

theorem readReady_of_empty (hb : stream.state.readBarrier = .ok ()) (hbu : stream.readBuffer = [])
    (len : Nat) (items : List Item) : (stream.withIncoming items).readReady len = none := by
  simp [readReady, withIncoming, hb, hbu]

/-- What a read gives, and that it has taken some messages off the front. -/
def ReadSteps (stream : Stream) (len : Nat) : Prop :=
  ∃ result after taken, stream.pollRead len = some (result, after) ∧
    stream.io.incoming = taken ++ after.io.incoming ∧ ReadStep stream after result taken

variable {rest : List Item}

namespace Live

variable (hlive : stream.Live)

include hlive

theorem readBarrier : stream.state.readBarrier = .ok () := by
  rcases hlive.state with hs | hs
  all_goals
    rw [hs]
    rfl

theorem handleFlag_fin : (stream.handleFlag (some .fin)).state.readBarrier = .error .brokenPipe := by
  rcases hlive.state with hs | hs
  all_goals simp [handleFlag, hs, State.handleInboundFlag, State.readBarrier]

theorem handleFlag_of_ne {flag : Option Flag} (hf : flag ≠ some .fin) (hr : flag ≠ some .reset) :
    ∃ state, (state = .opened ∨ state = .writeClosed) ∧ stream.handleFlag flag = { stream with state } := by
  cases flag with
  | none => exact ⟨stream.state, hlive.state, rfl⟩
  | some flag =>
    cases flag with
    | fin => exact absurd rfl hf
    | reset => exact absurd rfl hr
    | stopSending =>
      refine ⟨.writeClosed, .inr rfl, ?_⟩
      rcases hlive.state with hs | hs
      all_goals simp [handleFlag, hs, State.handleInboundFlag]

variable {len : Nat}

theorem readStep_buffer (hb : stream.readBuffer ≠ []) (hlen : 0 < len) : stream.ReadSteps len := by
  rw [ReadSteps, pollRead, pollReadLoop_of_buffer hlive.readBarrier hb]
  refine ⟨_, _, [], rfl, rfl, .data ?_ { hlive with } rfl rfl (by simp) (by simp [payloads, withBuffer])⟩
  rw [Ne, take_eq_nil_iff, not_or]
  exact ⟨by omega, hb⟩

theorem readStep_nothing (hb : stream.readBuffer = []) (hi : stream.io.incoming = []) (len : Nat) :
    stream.ReadSteps len := by
  have hs : stream.withIncoming [] = stream := by
    rw [← hi]
    rfl
  rw [ReadSteps, pollRead, hi, pollReadLoop, readReady_of_empty hlive.readBarrier hb, hs]
  by_cases he : stream.io.ended
  · rw [if_pos he]
    exact ⟨_, _, [], rfl, hi.symm, .channelEnd hb hi he⟩
  · rw [if_neg he]
    exact ⟨_, _, [], rfl, hi.symm, .pending hb hi (Bool.eq_false_iff.2 he) rfl⟩

theorem readStep_message (hb : stream.readBuffer = []) {item : Item}
    (hi : stream.io.incoming = item :: rest) (hlen : 0 < len) : stream.ReadSteps len := by
  obtain ⟨frame, hf, hr⟩ := hlive.incoming item (by rw [hi]; exact mem_cons_self)
  have hofI : frameOf item = some frame := by
    rw [frameOf, hf]
    rfl
  have hre := readReady_of_empty hlive.readBarrier hb len (item :: rest)
  by_cases he : frame.payload = []
  · -- whatever the flag, the read reports the end of the stream
    have hra : stream.pollRead len = some (.ready (.ok []), (stream.handleFlag frame.flag).withIncoming rest) := by
      rw [pollRead, hi, pollReadLoop, hre]
      simp only [hf, handleFlag_readBuffer hb, ne_eq, not_true, if_false]
      cases hm : frame.message with
      | none => rfl
      | some message =>
        have hnil : message = [] := by simpa [payload, hm] using he
        simp [hnil]
    refine ⟨_, _, [item], hra, hi, .ended ?_ hb hi hf (by simp [plain, he])⟩
    intro bs hby
    cases hby
    rfl
  · obtain ⟨message, hm⟩ : ∃ message, frame.message = some message := by
      cases hm : frame.message with
      | none => exact absurd (by simp [payload, hm]) he
      | some message => exact ⟨message, rfl⟩
    have hp : frame.payload = message := by simp [payload, hm]
    have hn : message ≠ [] := hp ▸ he
    have hra : stream.pollRead len = ((stream.handleFlag frame.flag).withBuffer message).pollReadLoop len rest := by
      rw [pollRead, hi, pollReadLoop, hre]
      simp only [hf, hm, handleFlag_readBuffer hb, ne_eq, not_true, if_false]
      exact if_neg hn
    by_cases hfi : frame.flag = some .fin
    · -- the data is put in the buffer, but the next turn of the loop does not get past the barrier
      have hba : ((stream.handleFlag (some .fin)).withBuffer message).state.readBarrier = .error .brokenPipe :=
        hlive.handleFlag_fin
      rw [hfi, pollReadLoop_of_error hba] at hra
      refine ⟨_, _, [item], hra, hi, .ended ?_ hb hi hf (by simp [plain, hfi])⟩
      intro bs hby
      cases hby
    · obtain ⟨state, hs, hfl⟩ := hlive.handleFlag_of_ne hfi hr
      have hba : (({ stream with state } : Stream).withBuffer message).state.readBarrier = .ok () := by
        rcases hs with rfl | rfl <;> rfl
      rw [hfl, pollReadLoop_of_buffer hba hn] at hra
      refine ⟨_, _, [item], hra, hi, .data ?_ ⟨hs, ?_⟩ rfl hi ?_ ?_⟩
      · rw [Ne, take_eq_nil_iff, not_or]
        exact ⟨by omega, hn⟩
      · intro other ho
        exact hlive.incoming other (by rw [hi]; exact mem_cons_of_mem _ ho)
      · simp [hofI, plain, he, hfi]
      · simp [hb, hofI, payloads, hp, withBuffer]

theorem readStep (hlen : 0 < len) : ∃ result taken, (stream.exec (.pollRead len)).1 = .read result taken ∧
      ReadStep stream (stream.exec (.pollRead len)).2 result taken := by
  obtain ⟨result, after, taken, hr, ht, hs⟩ : stream.ReadSteps len := by
    by_cases hb : stream.readBuffer = []
    · cases hi : stream.io.incoming with
      | nil => exact hlive.readStep_nothing hb hi len
      | cons => exact hlive.readStep_message hb hi hlen
    · exact hlive.readStep_buffer hb hlen
  have hta : stream.io.incoming.take (stream.io.incoming.length - after.io.incoming.length) = taken := by
    conv_lhs => rw [ht]
    simp
  rw [exec, hr]
  exact ⟨result, taken, congrArg _ hta, hs⟩

theorem pollWrite_io (data : List UInt8) (sink : SinkAnswers) :
    (stream.pollWrite data sink).2.Live ∧ (stream.pollWrite data sink).2.readBuffer = stream.readBuffer ∧
      (stream.pollWrite data sink).2.io.incoming = stream.io.incoming ∧
      (stream.pollWrite data sink).2.io.ended = stream.io.ended := by
  have hd : stream.discardLoop stream.io.incoming = (.ok (), stream) := by
    have hf : stream.state.readFlagsInAsyncWrite = false := by
      rcases hlive.state with hs | hs <;> rw [hs] <;> rfl
    cases hi : stream.io.incoming with
    | nil =>
      rw [discardLoop, ← hi]
      rfl
    | cons =>
      rw [discardLoop, hf, if_neg Bool.false_ne_true, ← hi]
      rfl
  rw [pollWrite, hd]
  split
  · next hl => cases hl
  · next hl =>
    obtain ⟨-, rfl⟩ := Prod.mk.inj hl
    repeat' split
    all_goals exact ⟨{ hlive with }, rfl, rfl, rfl⟩

end Live

/-- The run has come to a report of the end or of an error, or all that has arrived is read. -/
def Complete (stream : Stream) (calls : List Call) : Prop :=
  (firstEnd (runTotal exec stream calls).1).isSome ∨
    ((runTotal exec stream calls).2.io.incoming = [] ∧ (runTotal exec stream calls).2.readBuffer = [])

/-- What a run of reads delivers, and which messages the call took that reported the end. -/
structure Delivers (stream : Stream) (calls : List Call) (outcomes : List Outcome) : Prop where
  data : delivered outcomes = stream.readBuffer ++ payloads ((stream.ahead calls).takeWhile plain)
  last : ∀ outcome, firstEnd outcomes = some outcome → ∃ result taken, outcome = .read result taken ∧
    taken.filterMap frameOf = ((stream.ahead calls).dropWhile plain).take 1
  goesOn : firstEnd outcomes = none → (stream.ahead calls).dropWhile plain = []

variable {after : Stream} {call : Call} {item : Item} {outcome : Outcome}

theorem Delivers.cons {frames : List Frame} (ha : after.Delivers calls outcomes)
    (he : outcome.ends = false) (hp : ∀ frame ∈ frames, frame.plain)
    (hr : stream.readBuffer ++ payloads frames = outcome.data ++ after.readBuffer)
    (hah : stream.ahead (call :: calls) = frames ++ after.ahead calls) :
    stream.Delivers (call :: calls) (outcome :: outcomes) := by
  constructor
  · rw [delivered, if_neg (by simp [he]), ha.data, hah, takeWhile_append_of_pos hp]
    calc outcome.data ++ (after.readBuffer ++ payloads ((after.ahead calls).takeWhile plain))
        = (stream.readBuffer ++ payloads frames) ++ payloads ((after.ahead calls).takeWhile plain) := by
          rw [hr, append_assoc]
      _ = stream.readBuffer ++ payloads (frames ++ (after.ahead calls).takeWhile plain) := by
          simp [payloads]
  · intro last hl
    rw [firstEnd, find?_cons_of_neg (by simp [he])] at hl
    rw [hah, dropWhile_append_of_pos hp]
    exact ha.last last hl
  · intro hn
    rw [firstEnd, find?_cons_of_neg (by simp [he])] at hn
    rw [hah, dropWhile_append_of_pos hp]
    exact ha.goesOn hn

theorem Delivers.cons_silent (ha : after.Delivers calls outcomes) (hd : outcome.data = [])
    (he : outcome.ends = false) (hb : after.readBuffer = stream.readBuffer)
    (hah : after.ahead calls = stream.ahead (call :: calls)) :
    stream.Delivers (call :: calls) (outcome :: outcomes) :=
  ha.cons he (forall_mem_nil _) (by rw [hd, hb]; exact append_nil _) hah.symm

theorem ends_of_result {result : Except IoError (List UInt8)}
    (hr : ∀ bs, result = .ok bs → bs = []) : (read (.ready result) taken).ends := by
  cases result with
  | error => rfl
  | ok bs => simp [ends, hr bs rfl]

theorem delivers_of_ends (he : (read result taken).ends)
    (hb : stream.readBuffer = []) (hs : (stream.ahead calls).takeWhile plain = [])
    (ht : taken.filterMap frameOf = (stream.ahead calls).take 1) :
    stream.Delivers calls (.read result taken :: outcomes) where
  data := by
    rw [delivered, if_pos he, hb, hs]
    rfl
  last := by
    intro last hl
    rw [firstEnd, find?_cons_of_pos he] at hl
    have hd := takeWhile_append_dropWhile (p := plain) (l := stream.ahead calls)
    rw [hs, nil_append] at hd
    rw [hd]
    exact ⟨result, taken, (Option.some.inj hl).symm, ht⟩
  goesOn := by
    intro hn
    rw [firstEnd, find?_cons_of_pos he] at hn
    cases hn

theorem Complete.tail (hc : stream.Complete (call :: calls))
    (he : (stream.exec call).1.ends = false) : (stream.exec call).2.Complete calls := by
  rcases hc with hen | hd
  · left
    rwa [runTotal, firstEnd, find?_cons_of_neg (by simp [he])] at hen
  · exact .inr hd

theorem ahead_cons
    (hi : stream.io.incoming = item :: rest) (hf : decodeItem item = .ok frame) (calls : List Call) :
    stream.ahead calls = frame :: (stream.withIncoming rest).ahead calls := by
  have hofI : frameOf item = some frame := by
    rw [frameOf, hf]
    rfl
  rw [ahead, hi, filterMap_cons_some hofI]
  rfl

theorem ahead_arrive (stream : Stream) (item : Item) (calls : List Call) :
    (stream.exec (.arrive item)).2.ahead calls = stream.ahead (.arrive item :: calls) := by
  rw [exec]
  split_ifs with he
  · simp [ahead, he]
  · simp [ahead, he, withIncoming, received, filterMap_append, filterMap_cons]
    cases frameOf item <;> rfl

theorem Live.arrive (hlive : stream.Live) (hi : (Call.arrive item).reading) :
    (stream.exec (.arrive item)).2.Live := by
  rw [exec]
  split_ifs
  · exact hlive
  refine ⟨hlive.state, ?_⟩
  intro other ho
  rcases mem_append.1 ho with hol | hn
  · exact hlive.incoming other hol
  rw [mem_singleton.1 hn]
  cases hd : decodeItem item with
  | error => simp [Call.reading, frameOf, hd, Except.toOption] at hi
  | ok frame => exact ⟨frame, rfl, by simpa [Call.reading, frameOf, hd, Except.toOption] using hi⟩

theorem Live.delivers (hlive : stream.Live) (hc : ∀ call ∈ calls, call.reading)
    (hco : stream.Complete calls) : stream.Delivers calls (runTotal exec stream calls).1 := by
  induction calls generalizing stream with
  | nil =>
    rcases hco with he | ⟨hi, hb⟩
    · cases he
    have hnot : stream.ahead [] = [] := by
      rw [ahead, show stream.io.incoming = [] from hi]
      simp [received]
    refine ⟨?_, nofun, fun _ => by rw [hnot]; rfl⟩
    rw [show stream.readBuffer = [] from hb, hnot]
    rfl
  | cons call calls ih =>
    have hca := hc call mem_cons_self
    have hr : ∀ other ∈ calls, other.reading := fun other ho => hc other (mem_cons_of_mem _ ho)
    cases call with
    | arrive item =>
      have ha := ih (hlive.arrive hca) hr (hco.tail rfl)
      exact ha.cons_silent rfl rfl (by rw [exec]; split_ifs <;> rfl) (ahead_arrive stream item calls)
    | channelEnd =>
      have hafL : (stream.exec .channelEnd).2.Live := { hlive with }
      have ha := ih hafL hr (hco.tail rfl)
      exact ha.cons_silent rfl rfl rfl (by simp [ahead, exec, received])
    | pollRead len =>
      obtain ⟨_, taken, hou, hs⟩ := hlive.readStep (of_decide_eq_true hca)
      have ht := fun hl' hen => ih hl' hr (hco.tail (hou ▸ hen))
      rw [runTotal, hou]
      cases hs with
      | pending hb hi hee ha =>
        have hafL : (stream.exec (.pollRead len)).2.Live := by rwa [ha]
        exact (ht hafL rfl).cons_silent rfl rfl (by rw [ha]) (by rw [ha]; rfl)
      | @data bs _ hby hafL hee hi hp hre =>
        have hen : (read (.ready (.ok bs)) taken).ends = false := by simpa [ends] using hby
        refine (ht hafL hen).cons hen hp hre ?_
        rw [ahead, ahead, hi, hee, filterMap_append, append_assoc]
        rfl
      | ended hrs hb hi hf hp =>
        have hah := ahead_cons hi hf (.pollRead len :: calls)
        refine delivers_of_ends ?_ hb ?_ ?_
        · exact ends_of_result hrs
        · rw [hah, takeWhile_cons_of_neg (by simp [hp])]
        · simp [hah, frameOf, hf, Except.toOption]
      | channelEnd hb hi hee =>
        have hah : stream.ahead (.pollRead len :: calls) = [] := by simp [ahead, hi, hee]
        exact delivers_of_ends rfl hb (by rw [hah]; rfl) (by rw [hah]; rfl)
    | pollWrite data sink =>
      obtain ⟨hafL, hb, hi, hee⟩ := hlive.pollWrite_io data sink
      have ha := ih hafL hr (hco.tail rfl)
      refine ha.cons_silent rfl rfl hb ?_
      rw [ahead, ahead, hi, hee]
      rfl
    | pollClose sink | pollCloseRead sink => cases hca

end Stream

/-- The condition on what the remote sends: of the messages up to the first `Fin`, the first one that brings no data
or has the flag `Fin` is not a `StopSending`, and neither it nor any later one brings data. -/
structure Clean (frames : List Frame) : Prop where
  noData : ∀ frame ∈ upToFin (frames.dropWhile plain), frame.payload = []
  noStop : ∀ frame ∈ (frames.dropWhile plain).head?, frame.flag ≠ some .stopSending

theorem upToFin_append {front : List Frame} (hp : ∀ frame ∈ front, frame.plain) (rest : List Frame) :
    upToFin (front ++ rest) = front ++ upToFin rest := by
  induction front with
  | nil => rfl
  | cons frame front ih =>
    have hf : frame.flag ≠ some .fin := by
      have hplF := hp frame mem_cons_self
      simp only [plain, Bool.and_eq_true, decide_eq_true_eq] at hplF
      exact hplF.2
    rw [cons_append, upToFin, if_neg hf, ih fun other ho => hp other (mem_cons_of_mem _ ho)]
    rfl

variable {frames : List Frame}

theorem payloads_eq_nil : payloads frames = [] ↔ ∀ frame ∈ frames, frame.payload = [] := by
  simp [payloads]

theorem tookStopSending_eq_false_iff {taken : List Item} :
    (read result taken).tookStopSending = false ↔
      ∀ frame ∈ taken.filterMap frameOf, frame.flag ≠ some .stopSending := by
  simp only [tookStopSending, any_eq_false, mem_filterMap, forall_exists_index, and_imp]
  constructor
  · intro hn frame item hi hf
    simpa [hf] using hn item hi
  intro hn item hi
  cases hf : frameOf item with
  | none => simp
  | some frame => simpa using hn frame item hi hf

theorem mem_take_one_iff : frame ∈ frames.take 1 ↔ frame ∈ frames.head? := by
  cases frames with
  | nil => simp
  | cons => simp [eq_comm]

namespace Stream

theorem live_new : new.Live := ⟨.inl rfl, nofun⟩

/-- For every sequence of messages without a reset, arriving at any times between the calls of a reader: what is
delivered before the first report of the end or of an error are the payloads of the messages up to and including the
first `Fin`, and no `StopSending` ends the reading, if the sequence is clean, and only then. -/
theorem delivered_iff_clean (calls : List Call) (hcalls : ∀ call ∈ calls, call.reading)
    (hcomplete : new.Complete calls) :
    (delivered (runTotal exec new calls).1 = payloads (upToFin (received calls)) ∧
      ∀ outcome, firstEnd (runTotal exec new calls).1 = some outcome →
        outcome.tookStopSending = false) ↔ Clean (received calls) := by
  have hd := live_new.delivers hcalls hcomplete
  have ha : new.ahead calls = received calls := rfl
  have hp : ∀ frame ∈ (received calls).takeWhile plain, frame.plain := fun frame hf => mem_takeWhile_imp hf
  have hs : payloads (upToFin (received calls)) = payloads ((received calls).takeWhile plain) ++
      payloads (upToFin ((received calls).dropWhile plain)) := by
    conv_lhs => rw [← takeWhile_append_dropWhile (p := plain) (l := received calls)]
    rw [upToFin_append hp, payloads, flatMap_append]
    rfl
  have hda : delivered (runTotal exec new calls).1 = payloads ((received calls).takeWhile plain) :=
    ha ▸ hd.data
  rw [hda, hs, self_eq_append_right, payloads_eq_nil]
  constructor
  · rintro ⟨hnoD, hnoS⟩
    refine ⟨hnoD, ?_⟩
    intro frame hf
    cases he : firstEnd (runTotal exec new calls).1 with
    | none =>
      rw [← ha, hd.goesOn he] at hf
      cases hf
    | some outcome =>
      obtain ⟨result, taken, rfl, ht⟩ := hd.last outcome he
      have hfl := tookStopSending_eq_false_iff.1 (hnoS _ he)
      rw [ht, ha] at hfl
      exact hfl frame (mem_take_one_iff.2 hf)
  · rintro ⟨hnoD, hnoS⟩
    refine ⟨hnoD, ?_⟩
    intro outcome he
    obtain ⟨result, taken, rfl, ht⟩ := hd.last outcome he
    rw [tookStopSending_eq_false_iff, ht, ha]
    intro frame hf
    exact hnoS frame (mem_take_one_iff.1 hf)

def arrival (flag : Option Flag) (message : Option (List UInt8)) : Call :=
  .arrive (.ok ⟨flag.map Flag.toNumber, message⟩)

/-- Data, the flag `StopSending` together with data, and then a `Fin` of its own. -/
theorem delivered_iff_clean_threeMessages :
    delivered (runTotal exec new [arrival none (some [1, 2]), .pollRead 1,
        arrival (some .stopSending) (some [3]), arrival (some .fin) none, .pollRead 5, .pollRead 5, .pollRead 5]).1 =
      payloads (upToFin [⟨none, some [1, 2]⟩, ⟨some .stopSending, some [3]⟩, ⟨some .fin, none⟩]) :=
  ((delivered_iff_clean [arrival none (some [1, 2]), .pollRead 1, arrival (some .stopSending) (some [3]),
    arrival (some .fin) none, .pollRead 5, .pollRead 5, .pollRead 5] (by decide) (.inl (by decide))).2
    ⟨by decide, by decide⟩).1

/-- Data that comes with a `Fin` is not delivered, and a `StopSending` of its own ends the reading before data that
comes after it. -/
theorem not_delivered_fin_and_stopSending :
    ((runTotal exec new [arrival (some .fin) (some [7]), .pollRead 4]).1 =
        [.silent, .read (.ready (.error .brokenPipe)) [.ok ⟨some 0, some [7]⟩]] ∧
      delivered (runTotal exec new [arrival (some .fin) (some [7]), .pollRead 4]).1 ≠
        payloads (upToFin (received [arrival (some .fin) (some [7]), .pollRead 4]))) ∧
    ((runTotal exec new [arrival (some .stopSending) none, arrival none (some [7]), .pollRead 4]).1 =
        [.silent, .silent, .read (.ready (.ok [])) [.ok ⟨some 1, none⟩]] ∧
      delivered (runTotal exec new [arrival (some .stopSending) none, arrival none (some [7]), .pollRead 4]).1 ≠
        payloads (upToFin (received [arrival (some .stopSending) none, arrival none (some [7]), .pollRead 4]))) := by
  decide

end Stream
end RustLibp2p.WebRtc
