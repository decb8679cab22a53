import RustLibp2p.MplexCodec
import RustLibp2p.OrdMap

/-! The multiplexed connection. Whoever polls takes the next frame, keeps what is meant for somebody else
in the buffer of that substream, and answers with what it asked for itself. The underlying stream is
known by its answers. Tasks and their wakers are left out, and so are assertions of debug builds. -/

namespace RustLibp2p.Mplex

inductive ErrorKind where
  | brokenPipe
  | writeZero
  | unexpectedEof
  | other
  /-- Any other kind the underlying stream may report. -/
  | transport (code : Nat)
  deriving DecidableEq

structure IoError where
  kind : ErrorKind
  message : String
  deriving DecidableEq

namespace IoError

def brokenPipe : IoError := ⟨.brokenPipe, "broken pipe"⟩

def writeZero : IoError := ⟨.writeZero, "write zero"⟩

def unexpectedEof : IoError := ⟨.unexpectedEof, "unexpected end of file"⟩

def other (message : String) : IoError := ⟨.other, message⟩

end IoError

inductive Poll (α : Type) where
  | pending
  | ready (result : Except IoError α)

instance decidableEqPoll {α : Type} [DecidableEq α] : DecidableEq (Poll α)
  | .pending, .pending => .isTrue rfl
  | .pending, .ready _ => .isFalse nofun
  | .ready _, .pending => .isFalse nofun
  | .ready a, .ready b => decidable_of_iff (a = b) ⟨congrArg _, Poll.ready.inj⟩

inductive MaxBufferBehaviour where
  | resetStream
  | block
  deriving DecidableEq

structure Config where
  maxSubstreams : Nat
  maxBufferLen : Nat
  maxBufferBehaviour : MaxBufferBehaviour
  splitSendSize : Nat

def Config.default : Config := ⟨128, 32, .block, 8 * 1024⟩

abbrev RecvBuf := List (List UInt8)

inductive SubstreamState where
  | opened (buf : RecvBuf)
  | sendClosed (buf : RecvBuf)
  | recvClosed (buf : RecvBuf)
  | closed (buf : RecvBuf)
  | reset (buf : RecvBuf)

namespace SubstreamState

def recvBuf : SubstreamState → RecvBuf
  | .opened buf | .sendClosed buf | .recvClosed buf | .closed buf | .reset buf => buf

def withBuf (buf : RecvBuf) : SubstreamState → SubstreamState
  | .opened _ => .opened buf
  | .sendClosed _ => .sendClosed buf
  | .recvClosed _ => .recvClosed buf
  | .closed _ => .closed buf
  | .reset _ => .reset buf

def recvOpen : SubstreamState → Bool
  | .opened _ | .sendClosed _ => true
  | .recvClosed _ | .closed _ | .reset _ => false

end SubstreamState

inductive Status where
  | opened
  | closed
  | err (e : IoError)
  deriving DecidableEq

inductive Inbound where
  | frame (frame : RemoteFrame)
  | err (e : IoError)
  | eof

/-- The underlying stream takes what it is given, or fails. -/
inductive SinkAnswer where
  | done
  | err (e : IoError)
  deriving DecidableEq

/-- What the underlying stream has to be read, its further answers (after the last of them it is not
ready), and the frames it has taken. -/
structure Io where
  inbound : List Inbound
  sends : List SinkAnswer
  flushes : List SinkAnswer
  closes : List SinkAnswer
  sent : List (Frame LocalStreamId)

inductive Event where
  | opened (id : LocalStreamId)
  | received (frame : Frame LocalStreamId)
  | closed (id : LocalStreamId)
  | dropped (id : LocalStreamId)
  | overflowed (id : LocalStreamId)
  deriving DecidableEq

/-- Both queues have the element that is taken next first, the back of the source's deque. `history` is not
part of the program: what happened to the substreams so far. -/
structure Multiplexed where
  config : Config
  status : Status
  io : Io
  openBuffer : List LocalStreamId
  substreams : OrdMap LocalStreamId SubstreamState
  pendingFlushOpen : List LocalStreamId
  pendingFrames : List (Frame LocalStreamId)
  blockingStream : Option LocalStreamId
  nextOutboundStreamId : LocalStreamId
  history : List Event

def extraPendingFrames : Nat := 1000

/-- A panic, or a loop that does not end. -/
inductive MplexFault where
  | idOverflow
  | endless
  deriving DecidableEq

namespace Multiplexed

def new (config : Config) : Multiplexed where
  config := config
  status := .opened
  io := ⟨[], [], [], [], []⟩
  openBuffer := []
  substreams := .empty
  pendingFlushOpen := []
  pendingFrames := []
  blockingStream := none
  nextOutboundStreamId := .dialer 0
  history := []

def note (m : Multiplexed) (event : Event) : Multiplexed := { m with history := m.history ++ [event] }

section

variable (m : Multiplexed) (id : LocalStreamId)

def setSubstream (state : SubstreamState) : Multiplexed := { m with substreams := m.substreams.insert id state }

def removeSubstream : Multiplexed := { m with substreams := m.substreams.erase id }

def pushPendingFrame (frame : Frame LocalStreamId) : Multiplexed :=
  { m with pendingFrames := m.pendingFrames ++ [frame] }

/-- `ready!(…)?`. -/
def readyOk {α β : Type} (result : Poll α × Multiplexed) (f : α → Multiplexed → Poll β × Multiplexed) :
    Poll β × Multiplexed :=
  match result with
  | (.pending, m) => (.pending, m)
  | (.ready (.error e), m) => (.ready (.error e), m)
  | (.ready (.ok a), m) => f a m

def onError (e : IoError) : Multiplexed :=
  { m with status := .err e, pendingFrames := [], substreams := .empty, openBuffer := [] }

def guardOpen : Except IoError Unit :=
  match m.status with
  | .closed => .error (.other "Connection is closed")
  | .err e => .error e
  | .opened => .ok ()

def checkMaxPendingFrames : Except IoError Unit × Multiplexed :=
  if m.config.maxSubstreams + extraPendingFrames ≤ m.pendingFrames.length then
    let e := .other "Too many pending frames."
    (.error e, m.onError e)
  else (.ok (), m)

def pollSendFrame (frame : Frame LocalStreamId) : Poll Unit × Multiplexed :=
  match m.io.sends with
  | [] => (.pending, m)
  | .done :: sends => (.ready (.ok ()), { m with io := { m.io with sends := sends, sent := m.io.sent ++ [frame] } })
  | .err e :: sends => (.ready (.error e), onError { m with io := { m.io with sends := sends } } e)

/-- The loop of `send_pending_frames` over the pending frames. -/
def sendFrames : List (Frame LocalStreamId) → Multiplexed → Poll Unit × Multiplexed
  | [], m => (.ready (.ok ()), { m with pendingFrames := [] })
  | frame :: frames, m =>
    match pollSendFrame { m with pendingFrames := frames } frame with
    | (.pending, m) => (.pending, { m with pendingFrames := frame :: m.pendingFrames })
    | (.ready (.error e), m) => (.ready (.error e), m)
    | (.ready (.ok ()), m) => sendFrames frames m

def sendPendingFrames : Poll Unit × Multiplexed := sendFrames m.pendingFrames m

def pollFlush : Poll Unit × Multiplexed :=
  match m.status with
  | .closed => (.ready (.ok ()), m)
  | .err e => (.ready (.error e), m)
  | .opened =>
    readyOk m.sendPendingFrames fun _ m =>
      match m.io.flushes with
      | [] => (.pending, m)
      | .done :: flushes => (.ready (.ok ()), { m with io := { m.io with flushes := flushes }, pendingFlushOpen := [] })
      | .err e :: flushes => (.ready (.error e), onError { m with io := { m.io with flushes := flushes } } e)

def pollClose : Poll Unit × Multiplexed :=
  match m.status with
  | .closed => (.ready (.ok ()), m)
  | .err e => (.ready (.error e), m)
  | .opened =>
    match m.io.closes with
    | [] => (.pending, m)
    | .err e :: closes => (.ready (.error e), onError { m with io := { m.io with closes := closes } } e)
    | .done :: closes =>
      (.ready (.ok ()), { m with
        io := { m.io with closes := closes }, pendingFrames := [], openBuffer := [], substreams := .empty
        status := .closed })

/-- The end of `poll_read_frame`: nothing is read while a substream blocks the connection. -/
def takeFrame : Poll (Frame RemoteStreamId) × Multiplexed :=
  match m.blockingStream with
  | some _ => (.pending, m)
  | none =>
    match m.io.inbound with
    | [] => (.pending, m)
    | .frame frame :: inbound =>
      (.ready (.ok frame.frame),
        note { m with io := { m.io with inbound := inbound } } (.received frame.frame.intoLocal))
    | .err e :: inbound => (.ready (.error e), onError { m with io := { m.io with inbound := inbound } } e)
    | .eof :: inbound =>
      (.ready (.error .unexpectedEof), onError { m with io := { m.io with inbound := inbound } } .unexpectedEof)

def pollReadFrame (streamId : Option LocalStreamId) : Poll (Frame RemoteStreamId) × Multiplexed :=
  match m.sendPendingFrames with
  | (.ready (.error e), m) => (.ready (.error e), m)
  | (_, m) =>
    if streamId.any fun id => m.pendingFlushOpen.contains id then
      readyOk m.pollFlush fun _ m => takeFrame { m with pendingFlushOpen := [] }
    else m.takeFrame

def onOpen (id : RemoteStreamId) : Except IoError (Option LocalStreamId) × Multiplexed :=
  let id := id.intoLocal
  if (m.substreams.get? id).isSome then
    let e := .other "Protocol error: Received `Open` frame for open substream."
    (.error e, m.onError e)
  else if m.config.maxSubstreams ≤ m.substreams.entries.length then
    match m.checkMaxPendingFrames with
    | (.error e, m) => (.error e, m)
    | (.ok (), m) => (.ok none, m.pushPendingFrame (.reset id))
  else (.ok (some id), (m.setSubstream id (.opened [])).note (.opened id))

def onReset : Multiplexed :=
  match m.substreams.get? id with
  | some (.closed _) => m.removeSubstream id
  | some (.reset _) => m.removeSubstream id
  | some (.recvClosed buf) => m.setSubstream id (.reset buf)
  | some (.sendClosed buf) => m.setSubstream id (.reset buf)
  | some (.opened buf) => m.setSubstream id (.reset buf)
  | none => m

def onClose : Multiplexed :=
  match m.substreams.get? id with
  | some (.recvClosed buf) => m.setSubstream id (.recvClosed buf)
  | some (.closed buf) => m.setSubstream id (.closed buf)
  | some (.reset buf) => m.setSubstream id (.reset buf)
  | some (.sendClosed buf) => m.setSubstream id (.closed buf)
  | some (.opened buf) => m.setSubstream id (.recvClosed buf)
  | none => m

def canRead : Bool := (m.substreams.get? id).any SubstreamState.recvOpen

/-- What `buffer` does with a substream whose buffer has become too long. -/
def onFullBuffer (buf : RecvBuf) : Except IoError Unit × Multiplexed :=
  match m.config.maxBufferBehaviour with
  | .resetStream =>
    match m.checkMaxPendingFrames with
    | (.error e, m) => (.error e, m)
    | (.ok (), m) => (.ok (), ((m.setSubstream id (.reset buf)).pushPendingFrame (.reset id)).note (.overflowed id))
  | .block => (.ok (), { m with blockingStream := some id })

/-- Keeps data for a substream that is open for reading. -/
def buffer (data : List UInt8) : Except IoError Unit × Multiplexed :=
  match m.substreams.get? id with
  | none => (.ok (), m)
  | some state =>
    if state.recvOpen then
      let buf := state.recvBuf ++ [data]
      let m := m.setSubstream id (state.withBuf buf)
      if m.config.maxBufferLen < buf.length then m.onFullBuffer id buf else (.ok (), m)
    else (.ok (), m)

end

/-- What becomes of the frame a loop has read: the loop answers, or goes on with so many more frames
buffered. -/
inductive Handled (α : Type) where
  | done (result : Except IoError α) (m : Multiplexed)
  | more (buffered : Nat) (m : Multiplexed)

/-- The loop of `poll_next_stream` and `poll_read_stream`. Each turn but the last reads a frame. -/
def frameLoop {α : Type} (interest : Option LocalStreamId) (stop : Multiplexed → Option α)
    (handle : Frame RemoteStreamId → Multiplexed → Handled α) :
    Nat → Nat → Multiplexed → Except MplexFault (Poll α × Multiplexed)
  | 0, _, _ => .error .endless
  | fuel + 1, numBuffered, m =>
    if numBuffered = m.config.maxBufferLen then .ok (.pending, m)
    else
      match stop m with
      | some answer => .ok (.ready (.ok answer), m)
      | none =>
        match m.pollReadFrame interest with
        | (.pending, m) => .ok (.pending, m)
        | (.ready (.error e), m) => .ok (.ready (.error e), m)
        | (.ready (.ok frame), m) =>
          match handle frame m with
          | .done result m => .ok (.ready result, m)
          | .more buffered m => frameLoop interest stop handle fuel (numBuffered + buffered) m

/-- Data of a substream nobody asked for now. -/
def handleData {α : Type} (m : Multiplexed) (id : LocalStreamId) (data : List UInt8) : Handled α :=
  match m.buffer id data with
  | (.error e, m) => .done (.error e) m
  | (.ok (), m) => .more 1 m

def handleNext : Frame RemoteStreamId → Multiplexed → Handled LocalStreamId
  | .opened id, m =>
    match m.onOpen id with
    | (.error e, m) => .done (.error e) m
    | (.ok (some id), m) => .done (.ok id) m
    | (.ok none, m) => .more 0 m
  | .data id data, m => m.handleData id.intoLocal data
  | .close id, m => .more 0 (m.onClose id.intoLocal)
  | .reset id, m => .more 0 (m.onReset id.intoLocal)

def pollNextStream (m : Multiplexed) : Except MplexFault (Poll LocalStreamId × Multiplexed) :=
  match m.guardOpen with
  | .error e => .ok (.ready (.error e), m)
  | .ok () =>
    match m.openBuffer with
    | id :: openBuffer => .ok (.ready (.ok id), { m with openBuffer := openBuffer })
    | [] => frameLoop none (fun _ => none) handleNext (m.io.inbound.length + 1) 0 m

def handleRead (id : LocalStreamId) : Frame RemoteStreamId → Multiplexed → Handled (Option (List UInt8))
  | .data streamId data, m =>
    if streamId.intoLocal = id then .done (.ok (some data)) m else m.handleData streamId.intoLocal data
  | .opened streamId, m =>
    match m.onOpen streamId with
    | (.error e, m) => .done (.error e) m
    | (.ok (some id), m) => .more 0 { m with openBuffer := m.openBuffer ++ [id] }
    | (.ok none, m) => .more 0 m
  | .close streamId, m =>
    let m := m.onClose streamId.intoLocal
    if id = streamId.intoLocal then .done (.ok none) m else .more 0 m
  | .reset streamId, m =>
    let m := m.onReset streamId.intoLocal
    if id = streamId.intoLocal then .done (.ok none) m else .more 0 m

section

variable (m : Multiplexed) (id : LocalStreamId)

/-- The part of `poll_read_stream` that reads further frames. -/
def readLoop : Except MplexFault (Poll (Option (List UInt8)) × Multiplexed) :=
  frameLoop (some id) (fun m => if m.canRead id then none else some none) (handleRead id) (m.io.inbound.length + 1) 0 m

def pollReadStream : Except MplexFault (Poll (Option (List UInt8)) × Multiplexed) :=
  match m.guardOpen with
  | .error e => .ok (.ready (.error e), m)
  | .ok () =>
    match m.substreams.get? id with
    | none => m.readLoop id
    | some state =>
      match state.recvBuf with
      | [] => m.readLoop id
      | data :: buf =>
        let blockingStream := if m.blockingStream = some id then none else m.blockingStream
        .ok (.ready (.ok (some data)), { m with blockingStream := blockingStream }.setSubstream id (state.withBuf buf))

def pollOpenStream : Except MplexFault (Poll LocalStreamId × Multiplexed) :=
  match m.guardOpen with
  | .error e => .ok (.ready (.error e), m)
  | .ok () =>
    if m.config.maxSubstreams ≤ m.substreams.entries.length then .ok (.pending, m)
    else
      let id := m.nextOutboundStreamId
      match m.pollSendFrame (.opened id) with
      | (.pending, m) => .ok (.pending, m)
      | (.ready (.error e), m) => .ok (.ready (.error e), m)
      | (.ready (.ok ()), m) =>
        match id.next with
        | none => .error .idOverflow
        | some next =>
          .ok (.ready (.ok id), (note { m with
            nextOutboundStreamId := next
            pendingFlushOpen := id :: m.pendingFlushOpen } (.opened id)).setSubstream id (.opened []))

/-- Schedules the last frame of a dropped substream, unless too many frames are pending. -/
def pendFinal (frame : Frame LocalStreamId) : Multiplexed :=
  match m.checkMaxPendingFrames with
  | (.error _, m) => m
  | (.ok (), m) => m.pushPendingFrame frame

def dropStream : Multiplexed :=
  match m.status with
  | .closed => m
  | .err _ => m
  | .opened =>
    match m.substreams.get? id with
    | none => m
    | some state =>
      let m := (m.removeSubstream id).note (.dropped id)
      match state with
      | .closed _ => m
      | .sendClosed _ => m
      | .reset _ => m
      | .recvClosed _ => m.pendFinal (.close id)
      | .opened _ => m.pendFinal (.reset id)

def pollWriteStream (buf : List UInt8) : Poll Nat × Multiplexed :=
  match m.guardOpen with
  | .error e => (.ready (.error e), m)
  | .ok () =>
    match m.substreams.get? id with
    | none => (.ready (.error .brokenPipe), m)
    | some (.reset _) => (.ready (.error .brokenPipe), m)
    | some (.sendClosed _) => (.ready (.error .writeZero), m)
    | some (.closed _) => (.ready (.error .writeZero), m)
    | some (.opened _) | some (.recvClosed _) =>
      let frameLen := min buf.length m.config.splitSendSize
      readyOk (m.pollSendFrame (.data id (buf.take frameLen))) fun _ m => (.ready (.ok frameLen), m)

def pollFlushStream : Poll Unit × Multiplexed :=
  match m.guardOpen with
  | .error e => (.ready (.error e), m)
  | .ok () => readyOk m.pollFlush fun _ m => (.ready (.ok ()), m)

/-- Sends the `Close` frame of a substream taken out of the map, and puts it back in its new state. -/
def closeWith (pending closed : SubstreamState) : Poll Unit × Multiplexed :=
  match (m.removeSubstream id).pollSendFrame (.close id) with
  | (.pending, m) => (.pending, m.setSubstream id pending)
  | (.ready (.error e), m) => (.ready (.error e), m)
  | (.ready (.ok ()), m) => (.ready (.ok ()), (m.setSubstream id closed).note (.closed id))

def pollCloseStream : Poll Unit × Multiplexed :=
  match m.guardOpen with
  | .error e => (.ready (.error e), m)
  | .ok () =>
    match m.substreams.get? id with
    | none => (.ready (.ok ()), m)
    | some (.sendClosed buf) => (.ready (.ok ()), (m.removeSubstream id).setSubstream id (.sendClosed buf))
    | some (.closed buf) => (.ready (.ok ()), (m.removeSubstream id).setSubstream id (.closed buf))
    | some (.reset buf) => (.ready (.ok ()), (m.removeSubstream id).setSubstream id (.reset buf))
    | some (.opened buf) => m.closeWith id (.opened buf) (.sendClosed buf)
    | some (.recvClosed buf) => m.closeWith id (.recvClosed buf) (.closed buf)

end
end Multiplexed

/-- The underlying stream has something more to be read, or a call is made. -/
inductive MplexCall where
  | receive (item : Inbound)
  | pollNextStream
  | pollOpenStream
  | dropStream (id : LocalStreamId)
  | pollWriteStream (id : LocalStreamId) (buf : List UInt8)
  | pollReadStream (id : LocalStreamId)
  | pollFlushStream (id : LocalStreamId)
  | pollCloseStream (id : LocalStreamId)
  | pollFlush
  | pollClose

/-- A call, with the answers of the underlying stream during it. -/
structure MplexInput where
  call : MplexCall
  sends : List SinkAnswer := []
  flushes : List SinkAnswer := []
  closes : List SinkAnswer := []

def MplexInput.remoteOpen (num : Nat) : MplexInput where
  call := .receive (.frame ⟨.opened ⟨num, .dialer⟩, rfl⟩)

/-- The remote sends data on a substream it has opened. -/
def MplexInput.remoteData (num : Nat) (payload : List UInt8) : MplexInput where
  call := .receive (.frame ⟨.data ⟨num, .dialer⟩ payload, rfl⟩)

def MplexInput.remoteClose (num : Nat) : MplexInput where
  call := .receive (.frame ⟨.close ⟨num, .dialer⟩, rfl⟩)

def MplexInput.remoteReset (num : Nat) : MplexInput where
  call := .receive (.frame ⟨.reset ⟨num, .dialer⟩, rfl⟩)

inductive MplexOutput where
  | none
  | stream (answer : Poll LocalStreamId)
  | read (id : LocalStreamId) (answer : Poll (Option (List UInt8)))
  | written (answer : Poll Nat)
  | done (answer : Poll Unit)
  deriving DecidableEq

namespace Multiplexed

/-- The answers of the underlying stream during a call. -/
def withAnswers (m : Multiplexed) (input : MplexInput) : Multiplexed :=
  { m with io := { m.io with sends := input.sends, flushes := input.flushes, closes := input.closes } }

def act (m : Multiplexed) : MplexCall → Except MplexFault (MplexOutput × Multiplexed)
  | .receive item => .ok (.none, { m with io := { m.io with inbound := m.io.inbound ++ [item] } })
  | .pollNextStream => m.pollNextStream.map fun r => (.stream r.1, r.2)
  | .pollOpenStream => m.pollOpenStream.map fun r => (.stream r.1, r.2)
  | .dropStream id => .ok (.none, m.dropStream id)
  | .pollWriteStream streamId buf => .ok ((m.pollWriteStream streamId buf).map .written id)
  | .pollReadStream id => (m.pollReadStream id).map fun r => (.read id r.1, r.2)
  | .pollFlushStream _ => .ok (m.pollFlushStream.map .done id)
  | .pollCloseStream streamId => .ok ((m.pollCloseStream streamId).map .done id)
  | .pollFlush => .ok (m.pollFlush.map .done id)
  | .pollClose => .ok (m.pollClose.map .done id)

def exec (m : Multiplexed) (input : MplexInput) : Except MplexFault (MplexOutput × Multiplexed) :=
  (m.withAnswers input).act input.call

end Multiplexed
end RustLibp2p.Mplex
