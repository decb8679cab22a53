import RustLibp2p.PollIo
import RustLibp2p.Transition
import Mathlib.Data.List.Basic

/-! A stream over a WebRTC data channel. Data and the flags that close one half of the stream or reset it
travel in the same messages. -/

namespace RustLibp2p.WebRtc

open PollIo (Poll)

inductive Flag where
  | fin
  | stopSending
  | reset
  deriving DecidableEq

/-- The state of closing one half: the flag is to be sent, or it is sent and to be flushed. -/
inductive Closing where
  | requested
  | messageSent
  deriving DecidableEq

inductive State where
  | opened
  | readClosed
  | writeClosed
  | closingRead (writeClosed : Bool) (inner : Closing)
  | closingWrite (readClosed : Bool) (inner : Closing)
  | bothClosed (reset : Bool)
  deriving DecidableEq

inductive IoError where
  | brokenPipe
  | connectionReset
  | invalidData (message : String)
  | other (message : String)
  deriving DecidableEq

namespace State

/-- The transition for a flag of an inbound message, with what it leaves of the read buffer. -/
def handleInboundFlag (state : State) (flag : Flag) (buffer : List UInt8) : State × List UInt8 :=
  match state, flag with
  | opened, .fin => (readClosed, buffer)
  | writeClosed, .fin => (bothClosed false, buffer)
  | opened, .stopSending => (writeClosed, buffer)
  | readClosed, .stopSending => (bothClosed false, buffer)
  | _, .reset => (bothClosed true, [])
  | state, _ => (state, buffer)

/-- `none` is a panic: the transition must not be taken, or the assertion about the phase of closing fails. -/
def onWriteClosed : State → Option State
  | closingWrite true .messageSent => some (bothClosed false)
  | closingWrite false .messageSent => some writeClosed
  | _ => none

def closeWriteMessageSent : State → Option State
  | closingWrite closed .requested => some (closingWrite closed .messageSent)
  | _ => none

def onReadClosed : State → Option State
  | closingRead true .messageSent => some (bothClosed false)
  | closingRead false .messageSent => some readClosed
  | _ => none

def closeReadMessageSent : State → Option State
  | closingRead closed .requested => some (closingRead closed .messageSent)
  | _ => none

def readFlagsInAsyncWrite (state : State) : Bool := state = readClosed

def readBarrier : State → Except IoError Unit
  | opened => .ok ()
  | writeClosed => .ok ()
  | closingWrite false _ => .ok ()
  | closingWrite true _ => .error .brokenPipe
  | readClosed => .error .brokenPipe
  | closingRead _ _ => .error .brokenPipe
  | bothClosed false => .error .brokenPipe
  | bothClosed true => .error .connectionReset

def writeBarrier : State → Except IoError Unit
  | opened => .ok ()
  | readClosed => .ok ()
  | closingRead false _ => .ok ()
  | closingRead true _ => .error .brokenPipe
  | writeClosed => .error .brokenPipe
  | closingWrite _ _ => .error .brokenPipe
  | bothClosed false => .error .brokenPipe
  | bothClosed true => .error .connectionReset

/-- What is still to do to close the write half, and the state in which that is recorded. -/
def closeWriteBarrier : State → Except IoError (Option Closing) × State
  | writeClosed => (.ok none, writeClosed)
  | closingWrite closed inner => (.ok (some inner), closingWrite closed inner)
  | opened => (.ok (some .requested), closingWrite false .requested)
  | readClosed => (.ok (some .requested), closingWrite true .requested)
  | closingRead true inner => (.error .brokenPipe, closingRead true inner)
  | bothClosed false => (.error .brokenPipe, bothClosed false)
  | closingRead false inner =>
    (.error (.other "cannot close read half while closing write half"), closingRead false inner)
  | bothClosed true => (.error .connectionReset, bothClosed true)

def closeReadBarrier : State → Except IoError (Option Closing) × State
  | readClosed => (.ok none, readClosed)
  | closingRead closed inner => (.ok (some inner), closingRead closed inner)
  | opened => (.ok (some .requested), closingRead false .requested)
  | writeClosed => (.ok (some .requested), closingRead true .requested)
  | closingWrite true inner => (.error .brokenPipe, closingWrite true inner)
  | bothClosed false => (.error .brokenPipe, bothClosed false)
  | closingWrite false inner =>
    (.error (.other "cannot close write half while closing read half"), closingWrite false inner)
  | bothClosed true => (.error .connectionReset, bothClosed true)

end State

open State

/-- The protobuf message, with the flag as a number. -/
structure Message where
  flag : Option Int32
  message : Option (List UInt8)
  deriving DecidableEq

def Flag.toNumber : Flag → Int32
  | fin => 0
  | stopSending => 1
  | reset => 2

def Flag.tryFrom (number : Int32) : Option Flag :=
  if number = 0 then some fin
  else if number = 1 then some stopSending
  else if number = 2 then some reset
  else none

/-- A message whose flag is known. -/
structure Frame where
  flag : Option Flag
  message : Option (List UInt8)

/-- What the framing of the data channel gives: a message or the text of an error. -/
abbrev Item := Except String Message

/-- The end of `io_poll_next`, when there is an item. -/
def decodeItem : Item → Except IoError Frame
  | .error error => .error (.invalidData error)
  | .ok ⟨none, message⟩ => .ok ⟨none, message⟩
  | .ok ⟨some number, message⟩ =>
    match Flag.tryFrom number with
    | some flag => .ok ⟨some flag, message⟩
    | none => .error (.invalidData ("unknown enumeration value " ++ toString number))

/-- The data channel: what has arrived and is not read, whether it has ended behind that, and what was sent. -/
structure Channel where
  incoming : List Item
  ended : Bool
  sent : List Message

/-- How the sending half of the channel answers during one call. -/
structure SinkAnswers where
  ready : Poll (Except IoError Unit)
  startSend : Except IoError Unit
  flush : Poll (Except IoError Unit)

structure Stream where
  io : Channel
  state : State
  readBuffer : List UInt8
  /-- Whether the drop listener still waits to be told of a graceful close. -/
  dropNotifier : Bool

def maxMsgLen : Nat := 16 * 1024

def varintLen : Nat := 2

def protoOverhead : Nat := 5

def maxDataLen : Nat := maxMsgLen - varintLen - protoOverhead

namespace Stream

def new : Stream := ⟨⟨[], false, []⟩, .opened, [], true⟩

section

variable (stream : Stream)

def withIncoming (items : List Item) : Stream := { stream with io := { stream.io with incoming := items } }

def withBuffer (bytes : List UInt8) : Stream := { stream with readBuffer := bytes }

def handleFlag (flag : Option Flag) : Stream :=
  match flag with
  | some flag =>
    let handled := stream.state.handleInboundFlag flag stream.readBuffer
    { stream with state := handled.1, readBuffer := handled.2 }
  | none => stream

/-- What a turn of `poll_read` returns before it looks at the channel. -/
def readReady (len : Nat) : Option (Except IoError (List UInt8) × Stream) :=
  match stream.state.readBarrier with
  | .error error => some (.error error, stream)
  | .ok () =>
    if stream.readBuffer = [] then none
    else some (.ok (stream.readBuffer.take len), stream.withBuffer (stream.readBuffer.drop len))

/-- The loop of `poll_read`. `items` is what the channel holds. `none` is a panic. -/
def pollReadLoop (stream : Stream) (len : Nat) (items : List Item) :
    Option (Poll (Except IoError (List UInt8)) × Stream) :=
  match (stream.withIncoming items).readReady len with
  | some (result, stream) => some (.ready result, stream)
  | none =>
    match items with
    | [] =>
      if stream.io.ended then some (.ready (.ok []), (stream.withIncoming []).handleFlag (some .fin))
      else some (.pending, stream.withIncoming [])
    | item :: items =>
      match decodeItem item with
      | .error error => some (.ready (.error error), stream.withIncoming items)
      | .ok frame =>
        let stream := stream.handleFlag frame.flag
        -- the assertion that nothing is in the buffer that the message is to fill
        if stream.readBuffer ≠ [] then none
        else
          match frame.message with
          | some message =>
            if message = [] then some (.ready (.ok []), stream.withIncoming items)
            else pollReadLoop (stream.withBuffer message) len items
          | none => some (.ready (.ok []), stream.withIncoming items)

/-- Read into a buffer of `len` bytes. No bytes are the end of the stream. -/
def pollRead (len : Nat) : Option (Poll (Except IoError (List UInt8)) × Stream) :=
  stream.pollReadLoop len stream.io.incoming

/-- The loop in front of a write: a stream whose read half is closed is read for flags only. -/
def discardLoop (stream : Stream) : List Item → Except IoError Unit × Stream
  | [] => (.ok (), stream.withIncoming [])
  | item :: items =>
    if stream.state.readFlagsInAsyncWrite then
      match decodeItem item with
      | .error error => (.error error, stream.withIncoming items)
      | .ok frame => discardLoop (stream.handleFlag frame.flag) items
    else (.ok (), stream.withIncoming (item :: items))

def pollWrite (data : List UInt8) (sink : SinkAnswers) : Poll (Except IoError Nat) × Stream :=
  match stream.discardLoop stream.io.incoming with
  | (.error error, stream) => (.ready (.error error), stream)
  | (.ok (), stream) =>
    match stream.state.writeBarrier with
    | .error error => (.ready (.error error), stream)
    | .ok () =>
      match sink.ready with
      | .pending => (.pending, stream)
      | .ready (.error error) => (.ready (.error error), stream)
      | .ready (.ok ()) =>
        match sink.startSend with
        | .error error => (.ready (.error error), stream)
        | .ok () =>
          let n := min data.length maxDataLen
          (.ready (.ok n),
            { stream with io := { stream.io with sent := stream.io.sent ++ [⟨none, some (data.take n)⟩] } })

/-- The last turn of closing a half: the flag is sent, and the half is closed when it is flushed. -/
def flushClose (finish : Stream → Option Stream) (stream : Stream) (sink : SinkAnswers) :
    Option (Poll (Except IoError Unit) × Stream) :=
  match sink.flush with
  | .pending => some (.pending, stream)
  | .ready (.error error) => some (.ready (.error error), stream)
  | .ready (.ok ()) => (finish stream).map fun stream => (.ready (.ok ()), stream)

/-- Close one half with `flag`. `none` is a panic. -/
def closeHalf (barrier : State → Except IoError (Option Closing) × State) (flag : Flag)
    (messageSent : State → Option State) (finish : Stream → Option Stream) (stream : Stream) (sink : SinkAnswers) :
    Option (Poll (Except IoError Unit) × Stream) :=
  let turn := barrier stream.state
  let stream := { stream with state := turn.2 }
  match turn.1 with
  | .error error => some (.ready (.error error), stream)
  | .ok none => some (.ready (.ok ()), stream)
  | .ok (some .messageSent) => flushClose finish stream sink
  | .ok (some .requested) =>
    match sink.ready with
    | .pending => some (.pending, stream)
    | .ready (.error error) => some (.ready (.error error), stream)
    | .ready (.ok ()) =>
      match sink.startSend with
      | .error error => some (.ready (.error error), stream)
      | .ok () => do
        -- the barrier of the next turn answers that the message is sent
        let state ← messageSent stream.state
        let io := { stream.io with sent := stream.io.sent ++ [⟨some flag.toNumber, none⟩] }
        flushClose finish { stream with state, io } sink

/-- The write half is closed, and the listener is told, which can be done once only. -/
def finishClose : Option Stream := do
  let state ← stream.state.onWriteClosed
  if stream.dropNotifier then some { stream with state, dropNotifier := false } else none

def finishCloseRead : Option Stream := do
  let state ← stream.state.onReadClosed
  some { stream with state }

def pollClose (sink : SinkAnswers) : Option (Poll (Except IoError Unit) × Stream) :=
  stream.closeHalf closeWriteBarrier .fin closeWriteMessageSent finishClose sink

def pollCloseRead (sink : SinkAnswers) : Option (Poll (Except IoError Unit) × Stream) :=
  stream.closeHalf closeReadBarrier .stopSending closeReadMessageSent finishCloseRead sink

end
end Stream

/-- What happens to a stream: something arrives on the channel, the channel ends, or the user makes a call. -/
inductive Call where
  | arrive (item : Item)
  | channelEnd
  | pollRead (len : Nat)
  | pollWrite (data : List UInt8) (sink : SinkAnswers)
  | pollClose (sink : SinkAnswers)
  | pollCloseRead (sink : SinkAnswers)

/-- What the user sees. Of a read it is also recorded what it took from the channel. -/
inductive Outcome where
  | silent
  | read (result : Poll (Except IoError (List UInt8))) (taken : List Item)
  | wrote (result : Poll (Except IoError Nat))
  | closed (result : Poll (Except IoError Unit))
  | panicked
  deriving DecidableEq

namespace Stream

def closing (stream : Stream) : Option (Poll (Except IoError Unit) × Stream) → Outcome × Stream
  | some (result, stream) => (.closed result, stream)
  | none => (.panicked, stream)

def exec (stream : Stream) : Call → Outcome × Stream
  | .arrive item => (.silent, if stream.io.ended then stream else stream.withIncoming (stream.io.incoming ++ [item]))
  | .channelEnd => (.silent, { stream with io := { stream.io with ended := true } })
  | .pollRead len =>
    match stream.pollRead len with
    | some (result, after) =>
      (.read result (stream.io.incoming.take (stream.io.incoming.length - after.io.incoming.length)), after)
    | none => (.panicked, stream)
  | .pollWrite data sink =>
    let (result, after) := stream.pollWrite data sink
    (.wrote result, after)
  | .pollClose sink => stream.closing (stream.pollClose sink)
  | .pollCloseRead sink => stream.closing (stream.pollCloseRead sink)

end Stream

/-- The write half is closed and stays so. -/
def State.writeDone : State → Bool
  | writeClosed => true
  | closingRead true _ => true
  | bothClosed _ => true
  | _ => false

variable {state : State} {inner : Closing}

theorem State.writeDone_handleInboundFlag (hd : state.writeDone) (flag : Flag)
    (buffer : List UInt8) : (state.handleInboundFlag flag buffer).1.writeDone := by
  cases state with
  | writeClosed | bothClosed => cases flag <;> rfl
  | closingRead => cases flag <;> first | rfl | exact hd
  | opened | readClosed | closingWrite => cases hd

theorem State.writeDone_closeWriteBarrier (hd : state.writeDone) : state.closeWriteBarrier.2.writeDone := by
  cases state with
  | writeClosed => rfl
  | closingRead closed => cases closed <;> first | rfl | cases hd
  | bothClosed reset => cases reset <;> rfl
  | opened | readClosed | closingWrite => cases hd

theorem State.closeWriteBarrier_some (hb : state.closeWriteBarrier.1 = .ok (some inner)) :
    ∃ closed, state.closeWriteBarrier.2 = .closingWrite closed inner ∧ state.writeDone = false := by
  cases state with
  | opened =>
    cases hb
    exact ⟨false, rfl, rfl⟩
  | readClosed =>
    cases hb
    exact ⟨true, rfl, rfl⟩
  | closingWrite closed =>
    cases hb
    exact ⟨closed, rfl, rfl⟩
  | writeClosed => cases hb
  | closingRead closed => cases closed <;> cases hb
  | bothClosed reset => cases reset <;> cases hb

theorem State.writeDone_closeReadBarrier (state : State) : state.closeReadBarrier.2.writeDone = state.writeDone := by
  cases state with
  | closingWrite closed => cases closed <;> rfl
  | bothClosed reset => cases reset <;> rfl
  | opened | readClosed | writeClosed | closingRead => rfl

theorem State.closeReadBarrier_some (hb : state.closeReadBarrier.1 = .ok (some inner)) :
    ∃ closed, state.closeReadBarrier.2 = .closingRead closed inner := by
  cases state with
  | opened =>
    cases hb
    exact ⟨false, rfl⟩
  | writeClosed =>
    cases hb
    exact ⟨true, rfl⟩
  | closingRead closed =>
    cases hb
    exact ⟨closed, rfl⟩
  | readClosed => cases hb
  | closingWrite closed => cases closed <;> cases hb
  | bothClosed reset => cases reset <;> cases hb

namespace Stream

/-- The listener was told of a graceful close only if the write half is closed for good. -/
def Sound (stream : Stream) : Prop := stream.dropNotifier = false → stream.state.writeDone

variable {stream : Stream}

theorem readBarrier_of_readReady {len : Nat} (hr : stream.readReady len = none) :
    stream.state.readBarrier = .ok () ∧ stream.readBuffer = [] := by
  unfold readReady at hr
  split at hr
  · cases hr
  · next hb =>
    split_ifs at hr with hbu
    exact ⟨hb, hbu⟩

theorem handleFlag_readBuffer (hb : stream.readBuffer = []) (flag : Option Flag) :
    (stream.handleFlag flag).readBuffer = [] := by
  cases flag with
  | none => exact hb
  | some flag =>
    show (stream.state.handleInboundFlag flag stream.readBuffer).2 = []
    rw [hb]
    unfold handleInboundFlag
    split <;> rfl

section

variable (hsou : stream.Sound)
include hsou

theorem Sound.withIncoming (items : List Item) : (stream.withIncoming items).Sound := hsou

theorem Sound.withBuffer (bs : List UInt8) : (stream.withBuffer bs).Sound := hsou

theorem Sound.handleFlag (flag : Option Flag) : (stream.handleFlag flag).Sound := by
  cases flag with
  | none => exact hsou
  | some flag =>
    intro ht
    exact writeDone_handleInboundFlag (hsou ht) flag _

theorem Sound.readReady {after : Stream} {len : Nat}
    {res : Except IoError (List UInt8)} (hr : stream.readReady len = some (res, after)) : after.Sound := by
  unfold Stream.readReady at hr
  split at hr
  · cases hr
    exact hsou
  · split_ifs at hr
    cases hr
    exact hsou

theorem Sound.pollReadLoop (len : Nat) (items : List Item) :
    ∃ res after, stream.pollReadLoop len items = some (res, after) ∧ after.Sound := by
  induction items generalizing stream with
  | nil =>
    rw [pollReadLoop]
    split
    · next hr => exact ⟨_, _, rfl, (hsou.withIncoming _).readReady hr⟩
    · split_ifs
      · exact ⟨_, _, rfl, (hsou.withIncoming []).handleFlag _⟩
      · exact ⟨_, _, rfl, hsou⟩
  | cons item items ih =>
    rw [pollReadLoop]
    split
    · next hr => exact ⟨_, _, rfl, (hsou.withIncoming _).readReady hr⟩
    next hr =>
    split
    · exact ⟨_, _, rfl, hsou⟩
    · next frame _ =>
      have hf := hsou.handleFlag frame.flag
      have hb : stream.readBuffer = [] := (readBarrier_of_readReady hr).2
      rw [if_neg (not_not.2 (handleFlag_readBuffer hb frame.flag))]
      split
      · split_ifs
        · exact ⟨_, _, rfl, hf⟩
        · exact ih (hf.withBuffer _)
      · exact ⟨_, _, rfl, hf⟩

theorem Sound.discardLoop (items : List Item) : (stream.discardLoop items).2.Sound := by
  induction items generalizing stream with
  | nil => exact hsou
  | cons item items ih =>
    rw [discardLoop]
    split_ifs
    · split
      · exact hsou
      · exact ih (hsou.handleFlag _)
    · exact hsou

theorem Sound.pollWrite (data : List UInt8) (sink : SinkAnswers) : (stream.pollWrite data sink).2.Sound := by
  have hd := hsou.discardLoop stream.io.incoming
  rw [Stream.pollWrite]
  split
  · next hl => rwa [hl] at hd
  · next hl =>
    rw [hl] at hd
    repeat' split
    all_goals exact hd

end

/-- The half can be closed in this state once the flag is flushed, and is then left as it should be. -/
def Flushable (Good : Stream → Prop) (finish : Stream → Option Stream) (stream : Stream) : Prop :=
  Good stream ∧ ∃ after, finish stream = some after ∧ Good after

theorem exists_flushClose {Good : Stream → Prop} {finish : Stream → Option Stream}
    (hf : Flushable Good finish stream) (sink : SinkAnswers) :
    ∃ res after, flushClose finish stream sink = some (res, after) ∧ Good after := by
  obtain ⟨hg, _, hfi, ha⟩ := hf
  unfold flushClose
  split
  · exact ⟨_, _, rfl, hg⟩
  · exact ⟨_, _, rfl, hg⟩
  · rw [hfi]
    exact ⟨_, _, rfl, ha⟩

section CloseHalf

variable {Good : Stream → Prop} {barrier : State → Except IoError (Option Closing) × State}
  {messageSent : State → Option State} {finish : Stream → Option Stream}

theorem exists_closeHalf (flag : Flag) (sink : SinkAnswers)
    (ht : Good { stream with state := (barrier stream.state).2 })
    (hr : (barrier stream.state).1 = .ok (some .requested) → ∃ state,
      messageSent (barrier stream.state).2 = some state ∧
        ∀ io, Flushable Good finish { stream with state, io })
    (hs : (barrier stream.state).1 = .ok (some .messageSent) →
      Flushable Good finish { stream with state := (barrier stream.state).2 }) :
    ∃ res after, stream.closeHalf barrier flag messageSent finish sink = some (res, after) ∧ Good after := by
  cases hb : (barrier stream.state).1 with
  | error =>
    simp only [closeHalf, hb]
    exact ⟨_, _, rfl, ht⟩
  | ok closing =>
    cases closing with
    | none =>
      simp only [closeHalf, hb]
      exact ⟨_, _, rfl, ht⟩
    | some inner =>
      cases inner with
      | messageSent =>
        simp only [closeHalf, hb]
        exact exists_flushClose (hs hb) sink
      | requested =>
        obtain ⟨state, hst, hf⟩ := hr hb
        simp only [closeHalf, hb, hst, Option.bind_eq_bind, Option.bind_some]
        split
        · exact ⟨_, _, rfl, ht⟩
        · exact ⟨_, _, rfl, ht⟩
        · split
          · exact ⟨_, _, rfl, ht⟩
          · exact exists_flushClose (hf _) sink

end CloseHalf

theorem Sound.dropNotifier (hsou : stream.Sound) (hd : stream.state.writeDone = false) : stream.dropNotifier := by
  by_contra ht
  rw [hsou (Bool.eq_false_iff.2 ht)] at hd
  cases hd

variable {closed : Bool}

theorem flushable_finishClose (hnot : stream.dropNotifier)
    (hs : stream.state = .closingWrite closed .messageSent) : Flushable Sound finishClose stream := by
  constructor
  · intro ht
    rw [hnot] at ht
    cases ht
  cases closed with
  | false =>
    refine ⟨{ stream with state := .writeClosed, dropNotifier := false }, ?_, fun _ => rfl⟩
    simp [finishClose, hs, onWriteClosed, hnot]
  | true =>
    refine ⟨{ stream with state := .bothClosed false, dropNotifier := false }, ?_, fun _ => rfl⟩
    simp [finishClose, hs, onWriteClosed, hnot]

section

variable (hsou : stream.Sound)
include hsou

theorem Sound.pollClose (sink : SinkAnswers) :
    ∃ res after, stream.pollClose sink = some (res, after) ∧ after.Sound := by
  refine exists_closeHalf .fin sink ?_ ?_ ?_
  · intro ht
    exact writeDone_closeWriteBarrier (hsou ht)
  · intro hb
    obtain ⟨closed, hs, hd⟩ := closeWriteBarrier_some hb
    refine ⟨.closingWrite closed .messageSent, by rw [hs]; rfl, fun io => ?_⟩
    exact flushable_finishClose (hsou.dropNotifier hd) rfl
  · intro hb
    obtain ⟨closed, hs, hd⟩ := closeWriteBarrier_some hb
    exact flushable_finishClose (hsou.dropNotifier hd) hs

theorem flushable_finishCloseRead
    (hs : stream.state = .closingRead closed .messageSent) : Flushable Sound finishCloseRead stream := by
  refine ⟨hsou, ?_⟩
  cases closed with
  | false =>
    refine ⟨{ stream with state := .readClosed }, by simp [finishCloseRead, hs, onReadClosed], ?_⟩
    intro ht
    have hd := hsou ht
    rw [hs] at hd
    cases hd
  | true =>
    exact ⟨{ stream with state := .bothClosed false }, by simp [finishCloseRead, hs, onReadClosed], fun _ => rfl⟩

theorem Sound.pollCloseRead (sink : SinkAnswers) :
    ∃ res after, stream.pollCloseRead sink = some (res, after) ∧ after.Sound := by
  have ht : Sound { stream with state := stream.state.closeReadBarrier.2 } := by
    intro hto
    rw [writeDone_closeReadBarrier]
    exact hsou hto
  refine exists_closeHalf .stopSending sink ht ?_ ?_
  · intro hb
    obtain ⟨closed, hs⟩ := closeReadBarrier_some hb
    refine ⟨.closingRead closed .messageSent, by rw [hs]; rfl, fun io => ?_⟩
    refine flushable_finishCloseRead ?_ rfl
    intro hto
    have hd := ht hto
    rw [hs] at hd
    cases closed with
    | false => cases hd
    | true => rfl
  · intro hb
    obtain ⟨closed, hs⟩ := closeReadBarrier_some hb
    exact flushable_finishCloseRead ht hs

theorem Sound.exec (call : Call) : (stream.exec call).1 ≠ .panicked ∧ (stream.exec call).2.Sound := by
  cases call with
  | arrive =>
    refine ⟨nofun, ?_⟩
    rw [Stream.exec]
    split_ifs
    · exact hsou
    · exact hsou.withIncoming _
  | channelEnd => exact ⟨nofun, hsou⟩
  | pollRead len =>
    obtain ⟨res, after, hr, ha⟩ : ∃ res after, stream.pollRead len = some (res, after) ∧ after.Sound :=
      hsou.pollReadLoop len stream.io.incoming
    rw [Stream.exec, hr]
    exact ⟨nofun, ha⟩
  | pollWrite data sink => exact ⟨nofun, hsou.pollWrite data sink⟩
  | pollClose sink =>
    obtain ⟨res, after, hc, ha⟩ := hsou.pollClose sink
    rw [Stream.exec, hc]
    exact ⟨nofun, ha⟩
  | pollCloseRead sink =>
    obtain ⟨res, after, hc, ha⟩ := hsou.pollCloseRead sink
    rw [Stream.exec, hc]
    exact ⟨nofun, ha⟩

end

/-- Whatever arrives and whatever is called, no branch or assertion of the state machine panics. -/
theorem run_never_panics (calls : List Call) : .panicked ∉ (Transition.runTotal exec new calls).1 := by
  have hs : ∀ past stream call, Outcome.panicked ∉ past ∧ Sound stream →
      .panicked ∉ past ++ [(stream.exec call).1] ∧ (stream.exec call).2.Sound := by
    rintro past stream call ⟨hp, hsou⟩
    obtain ⟨hc, ha⟩ := hsou.exec call
    refine ⟨?_, ha⟩
    rw [List.mem_append, List.mem_singleton, not_or]
    exact ⟨hp, hc.symm⟩
  have hn : new.Sound := by
    intro ht
    cases ht
  exact (Transition.runTotal_history hs calls [] ⟨List.not_mem_nil, hn⟩).1

end Stream
end RustLibp2p.WebRtc
