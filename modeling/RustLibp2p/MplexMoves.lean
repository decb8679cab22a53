import RustLibp2p.MplexIo

/-! The moves of a multiplexed connection. Every call but the closing of the connection and the dropping
of a substream is a sequence of moves. -/

namespace RustLibp2p.Mplex
open SubstreamState List

/-- The underlying stream is going to report an error. -/
def Io.Failing (io : Io) : Prop := ∃ e, .err e ∈ io.sends ∨ .err e ∈ io.flushes

namespace SubstreamState

@[simp]
theorem recvBuf_withBuf (buf : RecvBuf) (state : SubstreamState) : (state.withBuf buf).recvBuf = buf := by
  cases state <;> rfl

@[simp]
theorem withBuf_recvBuf (state : SubstreamState) : state.withBuf state.recvBuf = state := by cases state <;> rfl

def afterClose : SubstreamState → SubstreamState
  | .opened buf => .recvClosed buf
  | .sendClosed buf => .closed buf
  | .recvClosed buf => .recvClosed buf
  | .closed buf => .closed buf
  | .reset buf => .reset buf

/-- The state after a `Reset` frame, if the substream is kept. -/
def afterReset : SubstreamState → Option SubstreamState
  | .opened buf => some (.reset buf)
  | .sendClosed buf => some (.reset buf)
  | .recvClosed buf => some (.reset buf)
  | .closed _ => none
  | .reset _ => none

@[simp]
theorem recvBuf_afterClose (state : SubstreamState) : state.afterClose.recvBuf = state.recvBuf := by cases state <;> rfl

@[simp]
theorem recvOpen_afterClose (state : SubstreamState) : state.afterClose.recvOpen = false := by cases state <;> rfl

theorem recvBuf_of_afterReset {state st' : SubstreamState} (hr : state.afterReset = some st') :
    st'.recvBuf = state.recvBuf ∧ st'.recvOpen = false := by
  cases state <;> cases hr <;> exact ⟨rfl, rfl⟩

end SubstreamState

namespace Multiplexed

section

variable (m : Multiplexed) (id : LocalStreamId) (state : SubstreamState)

@[simp]
theorem get?_setSubstream (id' : LocalStreamId) :
    (m.setSubstream id state).substreams.get? id' = if id' = id then some state else m.substreams.get? id' :=
  OrdMap.get?_insert ..

theorem get?_setSubstream_self : (m.setSubstream id state).substreams.get? id = some state := by
  rw [get?_setSubstream, if_pos rfl]

theorem get?_setSubstream_of_ne {id id' : LocalStreamId} (hne : id' ≠ id)
    (state : SubstreamState) : (m.setSubstream id state).substreams.get? id' = m.substreams.get? id' := by
  rw [get?_setSubstream, if_neg hne]

end

section

variable (m : Multiplexed) (id id' : LocalStreamId)

@[simp]
theorem get?_removeSubstream :
    (m.removeSubstream id).substreams.get? id' = if id' = id then none else m.substreams.get? id' :=
  OrdMap.get?_erase ..

theorem get?_onClose : (m.onClose id).substreams.get? id' =
      if id' = id then (m.substreams.get? id).bind (some ∘ afterClose) else m.substreams.get? id' := by
  cases hs : m.substreams.get? id with
  | none =>
    simp only [onClose, hs, Option.bind_none]
    split_ifs with heq
    · rw [heq, hs]
    · rfl
  | some state =>
    cases state <;> simp [onClose, hs, afterClose]

theorem get?_onReset : (m.onReset id).substreams.get? id' =
      if id' = id then (m.substreams.get? id).bind afterReset else m.substreams.get? id' := by
  cases hs : m.substreams.get? id with
  | none =>
    simp only [onReset, hs, Option.bind_none]
    split_ifs with heq
    · rw [heq, hs]
    · rfl
  | some state =>
    cases state <;> simp [onReset, hs, afterReset]

end

/-- What the two have in common: only the substream changes. -/
structure OnlySubstreams (m m' : Multiplexed) : Prop where
  config : m'.config = m.config
  status : m'.status = m.status
  blocking : m'.blockingStream = m.blockingStream
  nextId : m'.nextOutboundStreamId = m.nextOutboundStreamId
  history : m'.history = m.history
  io : m'.io = m.io

theorem onlySubstreams_onClose (m : Multiplexed) (id : LocalStreamId) : OnlySubstreams m (m.onClose id) := by
  unfold onClose
  split <;> exact ⟨rfl, rfl, rfl, rfl, rfl, rfl⟩

theorem onlySubstreams_onReset (m : Multiplexed) (id : LocalStreamId) : OnlySubstreams m (m.onReset id) := by
  unfold onReset
  split <;> exact ⟨rfl, rfl, rfl, rfl, rfl, rfl⟩

structure Quiet (m m' : Multiplexed) : Prop where
  config : m'.config = m.config
  status : m'.status = m.status
  substreams : m'.substreams = m.substreams
  blocking : m'.blockingStream = m.blockingStream
  nextId : m'.nextOutboundStreamId = m.nextOutboundStreamId
  history : m'.history = m.history
  inbound : m'.io.inbound = m.io.inbound
  failing : m'.io.Failing → m.io.Failing

theorem Quiet.refl (m : Multiplexed) : Quiet m m := ⟨rfl, rfl, rfl, rfl, rfl, rfl, rfl, id⟩

variable {m m' m'' : Multiplexed} {α : Type} {result : Poll α × Multiplexed}

theorem Quiet.trans (h : Quiet m m') (h' : Quiet m' m'') : Quiet m m'' where
  config := h'.config.trans h.config
  status := h'.status.trans h.status
  substreams := h'.substreams.trans h.substreams
  blocking := h'.blocking.trans h.blocking
  nextId := h'.nextId.trans h.nextId
  history := h'.history.trans h.history
  inbound := h'.inbound.trans h.inbound
  failing := h.failing ∘ h'.failing

theorem Quiet.lookup (h : Quiet m m') (id : LocalStreamId) : m'.substreams.get? id = m.substreams.get? id := by
  rw [h.substreams]

theorem quiet_queues (m : Multiplexed) (openBuffer flushOpen : List LocalStreamId)
    (frames : List (Frame LocalStreamId)) :
    Quiet m { m with openBuffer, pendingFlushOpen := flushOpen, pendingFrames := frames } :=
  ⟨rfl, rfl, rfl, rfl, rfl, rfl, rfl, id⟩

theorem quiet_io (m : Multiplexed) {sends flushes : List SinkAnswer} (sent : List (Frame LocalStreamId))
    (hs : sends ⊆ m.io.sends) (hf : flushes ⊆ m.io.flushes) :
    Quiet m { m with io := { m.io with sends, flushes, sent } } := by
  refine ⟨rfl, rfl, rfl, rfl, rfl, rfl, rfl, ?_⟩
  rintro ⟨e, hse | hfl⟩
  · exact ⟨e, .inl (hs hse)⟩
  · exact ⟨e, .inr (hf hfl)⟩

structure Failed (m m' : Multiplexed) : Prop where
  config : m'.config = m.config
  status : ∃ e, m'.status = .err e
  substreams : m'.substreams = .empty
  blocking : m'.blockingStream = m.blockingStream
  nextId : m'.nextOutboundStreamId = m.nextOutboundStreamId
  history : m'.history = m.history
  failing : m'.io.Failing → m.io.Failing

theorem Failed.lookup (h : Failed m m') (id : LocalStreamId) : m'.substreams.get? id = none := by
  rw [h.substreams, OrdMap.get?_empty]

theorem failed_onError (m : Multiplexed) (e : IoError) : Failed m (m.onError e) :=
  ⟨rfl, ⟨e, rfl⟩, rfl, rfl, rfl, rfl, id⟩

theorem Quiet.failed (hq : Quiet m m') (hf : Failed m' m'') : Failed m m'' where
  __ := hf
  config := hf.config.trans hq.config
  blocking := hf.blocking.trans hq.blocking
  nextId := hf.nextId.trans hq.nextId
  history := hf.history.trans hq.history
  failing := hq.failing ∘ hf.failing

/-- What comes of giving something to the underlying stream. -/
inductive Attempt {α : Type} (m : Multiplexed) : Poll α × Multiplexed → Prop where
  | pending {m' : Multiplexed} (hquiet : Quiet m m') : Attempt m (.pending, m')
  | ok (a : α) {m' : Multiplexed} (hquiet : Quiet m m') : Attempt m (.ready (.ok a), m')
  | failed (e : IoError) {m' : Multiplexed} (hfailed : Failed m m') (hcause : m.io.Failing) :
      Attempt m (.ready (.error e), m')

theorem Quiet.attempt (hq : Quiet m m') (ha : Attempt m' result) : Attempt m result := by
  cases ha with
  | pending h => exact .pending (hq.trans h)
  | ok a h => exact .ok a (hq.trans h)
  | failed e h hc => exact .failed e (hq.failed h) (hq.failing hc)

theorem Attempt.readyOk {β : Type} (ha : Attempt m result) {f : α → Multiplexed → Poll β × Multiplexed}
    (hf : ∀ a m', Quiet m m' → Attempt m' (f a m')) : Attempt m (readyOk result f) := by
  cases ha with
  | pending h => exact .pending h
  | ok a h => exact h.attempt (hf a _ h)
  | failed e h hc => exact .failed e h hc

theorem attempt_pollSendFrame (m : Multiplexed) (frame : Frame LocalStreamId) : Attempt m (m.pollSendFrame frame) := by
  have hf : ∀ {ans sends} sent, m.io.sends = ans :: sends →
      Quiet m { m with io := { m.io with sends, sent } } := by
    intro ans sends sent hs
    exact quiet_io m sent (hs ▸ subset_cons_self ans sends) (List.Subset.refl _)
  unfold pollSendFrame
  split
  next => exact .pending (.refl m)
  next hs => exact .ok () (hf _ hs)
  next e sends hs =>
    exact .failed e ((hf _ hs).failed (failed_onError _ e)) ⟨e, .inl (hs ▸ mem_cons_self)⟩

theorem quiet_pendingFrames (m : Multiplexed) (frames : List (Frame LocalStreamId)) :
    Quiet m { m with pendingFrames := frames } :=
  quiet_queues m m.openBuffer m.pendingFlushOpen frames

theorem attempt_sendFrames (frames : List (Frame LocalStreamId)) (m : Multiplexed) :
    Attempt m (sendFrames frames m) := by
  induction frames generalizing m with
  | nil => exact .ok () (quiet_pendingFrames m [])
  | cons frame frames ih =>
    have hs := (quiet_pendingFrames m frames).attempt (attempt_pollSendFrame { m with pendingFrames := frames } frame)
    rw [sendFrames]
    generalize pollSendFrame { m with pendingFrames := frames } frame = result at hs ⊢
    cases hs with
    | pending h => exact .pending (h.trans (quiet_pendingFrames _ _))
    | ok a h => exact h.attempt (ih _)
    | failed e h hc => exact .failed e h hc

theorem attempt_pollFlush (hs : m.status = .opened) : Attempt m m.pollFlush := by
  rw [pollFlush, hs]
  refine (attempt_sendFrames m.pendingFrames m).readyOk fun _ m' _ => ?_
  have hf : ∀ {ans flushes}, m'.io.flushes = ans :: flushes →
      Quiet m' { m' with io := { m'.io with flushes } } := by
    intro ans flushes hfl
    exact quiet_io m' _ (List.Subset.refl _) (hfl ▸ subset_cons_self ans flushes)
  split
  next => exact .pending (.refl m')
  next hfl => exact .ok () ((hf hfl).trans (quiet_queues _ _ _ _))
  next e flushes hfl =>
    exact .failed e ((hf hfl).failed (failed_onError _ e)) ⟨e, .inr (hfl ▸ mem_cons_self)⟩

/-- A frame has been taken from the underlying stream. -/
structure Took (m : Multiplexed) (frame : RemoteFrame) (m' : Multiplexed) : Prop where
  opened : m.status = .opened
  unblocked : m.blockingStream = none
  config : m'.config = m.config
  status : m'.status = m.status
  substreams : m'.substreams = m.substreams
  blocking : m'.blockingStream = none
  nextId : m'.nextOutboundStreamId = m.nextOutboundStreamId
  history : m'.history = m.history ++ [.received frame.frame.intoLocal]
  inbound : m.io.inbound = .frame frame :: m'.io.inbound
  failing : m'.io.Failing → m.io.Failing

theorem Took.lookup {frame : RemoteFrame} (h : Took m frame m') (id : LocalStreamId) :
    m'.substreams.get? id = m.substreams.get? id := by
  rw [h.substreams]

theorem Took.received {remote : RemoteFrame} (h : Took m remote m')
    {frame : Frame RemoteStreamId} (hf : remote.frame = frame) :
    m'.history = m.history ++ [.received frame.intoLocal] := by
  rw [h.history, hf]

inductive ReadCase (m : Multiplexed) : Poll (Frame RemoteStreamId) × Multiplexed → Prop where
  | pending {m' : Multiplexed} (hquiet : Quiet m m') : ReadCase m (.pending, m')
  | failed (e : IoError) {m' : Multiplexed} (hfailed : Failed m m')
      (hcause : m.blockingStream = none ∨ m.io.Failing) : ReadCase m (.ready (.error e), m')
  | took {m₁ m' : Multiplexed} {frame : RemoteFrame} (hquiet : Quiet m m₁) (htook : Took m₁ frame m') :
      ReadCase m (.ready (.ok frame.frame), m')

theorem Quiet.readCase {result : Poll (Frame RemoteStreamId) × Multiplexed}
    (hq : Quiet m m') (hr : ReadCase m' result) : ReadCase m result := by
  cases hr with
  | pending h => exact .pending (hq.trans h)
  | failed e h hc =>
    refine .failed e (hq.failed h) (hc.imp ?_ hq.failing)
    exact hq.blocking.symm.trans
  | took h ht => exact .took (hq.trans h) ht

theorem readCase_takeFrame (hs : m.status = .opened) : ReadCase m m.takeFrame := by
  unfold takeFrame
  split
  next => exact .pending (.refl m)
  next hb =>
    split
    next => exact .pending (.refl m)
    next inbound hi =>
      exact .took (.refl m) ⟨hs, hb, rfl, rfl, rfl, hb, rfl, rfl, hi, id⟩
    next e inbound hi => exact .failed e ⟨rfl, ⟨e, rfl⟩, rfl, rfl, rfl, rfl, id⟩ (.inl hb)
    next inbound hi => exact .failed _ ⟨rfl, ⟨_, rfl⟩, rfl, rfl, rfl, rfl, id⟩ (.inl hb)

theorem readCase_pollReadFrame (hs : m.status = .opened) (interest : Option LocalStreamId) :
    ReadCase m (m.pollReadFrame interest) := by
  have ht : ∀ {m' : Multiplexed}, Quiet m m' → ReadCase m
      (if interest.any fun id => m'.pendingFlushOpen.contains id then
        readyOk m'.pollFlush fun _ m => takeFrame { m with pendingFlushOpen := [] }
      else m'.takeFrame) := by
    intro m' hq
    apply hq.readCase
    split_ifs
    · have hf := attempt_pollFlush (hq.status.trans hs)
      generalize m'.pollFlush = result at hf ⊢
      cases hf with
      | pending h => exact .pending h
      | @ok _ m'' h =>
        have hc : Quiet m'' { m'' with pendingFlushOpen := [] } := quiet_queues m'' _ _ _
        exact (h.trans hc).readCase (readCase_takeFrame (h.status.trans (hq.status.trans hs)))
      | failed e h hca => exact .failed e h (.inr hca)
    · exact readCase_takeFrame (hq.status.trans hs)
  have hse := attempt_sendFrames m.pendingFrames m
  rw [pollReadFrame, sendPendingFrames]
  generalize sendFrames m.pendingFrames m = result at hse ⊢
  cases hse with
  | pending h | ok _ h => exact ht h
  | failed e h hca => exact .failed e h (.inr hca)

inductive OpenCase (m : Multiplexed) (id : LocalStreamId) :
    Except IoError (Option LocalStreamId) × Multiplexed → Prop where
  | failed (e : IoError) {m' : Multiplexed} (hfailed : Failed m m') : OpenCase m id (.error e, m')
  | refused {m' : Multiplexed} (hquiet : Quiet m m') : OpenCase m id (.ok none, m')
  | accepted (hnew : m.substreams.get? id = none) :
      OpenCase m id (.ok (some id), (m.setSubstream id (.opened [])).note (.opened id))

theorem openCase_onOpen (m : Multiplexed) (id : RemoteStreamId) : OpenCase m id.intoLocal (m.onOpen id) := by
  simp only [onOpen, checkMaxPendingFrames]
  split_ifs with hk hr hp
  · exact .failed _ (failed_onError m _)
  · exact .failed _ (failed_onError m _)
  · exact .refused (quiet_pendingFrames m _)
  · exact .accepted (Option.not_isSome_iff_eq_none.1 hk)

inductive BufferCase (m : Multiplexed) (id : LocalStreamId) (data : List UInt8) :
    Except IoError Unit × Multiplexed → Prop where
  | failed (e : IoError) {m' : Multiplexed} (hfailed : Failed m m') : BufferCase m id data (.error e, m')
  | ignored (hclosed : ∀ state, m.substreams.get? id = some state → state.recvOpen = false) :
      BufferCase m id data (.ok (), m)
  | kept {state : SubstreamState} (hstate : m.substreams.get? id = some state) (hopen : state.recvOpen) :
      BufferCase m id data (.ok (), m.setSubstream id (state.withBuf (state.recvBuf ++ [data])))
  | blocked {state : SubstreamState} (hstate : m.substreams.get? id = some state) (hopen : state.recvOpen) :
      BufferCase m id data
        (.ok (), { m.setSubstream id (state.withBuf (state.recvBuf ++ [data])) with blockingStream := some id })
  | overflowed {state : SubstreamState} (hstate : m.substreams.get? id = some state) (hopen : state.recvOpen)
      {m' : Multiplexed} (hquiet : Quiet (m.setSubstream id (.reset (state.recvBuf ++ [data]))) m') :
      BufferCase m id data (.ok (), m'.note (.overflowed id))

theorem bufferCase_buffer (m : Multiplexed) (id : LocalStreamId) (data : List UInt8) :
    BufferCase m id data (m.buffer id data) := by
  unfold buffer
  split
  next hn => exact .ignored fun state hs => nomatch hn.symm.trans hs
  next state hs =>
    split_ifs with ho
    · simp only
      split_ifs
      · rw [onFullBuffer]
        split
        next =>
          rw [checkMaxPendingFrames]
          split_ifs
          · exact .failed _ ⟨rfl, ⟨_, rfl⟩, rfl, rfl, rfl, rfl, fun h => h⟩
          refine .overflowed hs ho ⟨rfl, rfl, OrdMap.ext_get? fun id' => ?_, rfl, rfl, rfl, rfl, fun h => h⟩
          show ((m.setSubstream id _).setSubstream id _).substreams.get? id' = _
          simp only [get?_setSubstream]
          split_ifs <;> rfl
        next => exact .blocked hs ho
      · exact .kept hs ho
    · refine .ignored fun st' hs' => ?_
      cases hs.symm.trans hs'
      exact Bool.eq_false_iff.2 ho

/-- A move, and the data it delivers to the reader of a substream. -/
inductive Move (m : Multiplexed) : Option (LocalStreamId × List UInt8) → Multiplexed → Prop where
  | quiet {m' : Multiplexed} (hquiet : Quiet m m') : Move m none m'
  | fail {m' : Multiplexed} (hfailed : Failed m m') (hcause : m.blockingStream = none ∨ m.io.Failing) :
      Move m none m'
  | opened {m₁ m' : Multiplexed} {frame : RemoteFrame} {id : RemoteStreamId}
      {result : Except IoError (Option LocalStreamId)} (htook : Took m frame m₁) (hframe : frame.frame = .opened id)
      (hopen : OpenCase m₁ id.intoLocal (result, m')) : Move m none m'
  | buffered {m₁ m' : Multiplexed} {frame : RemoteFrame} {id : RemoteStreamId} {data : List UInt8}
      {result : Except IoError Unit} (htook : Took m frame m₁) (hframe : frame.frame = .data id data)
      (hbuffer : BufferCase m₁ id.intoLocal data (result, m')) : Move m none m'
  | delivered {m₁ : Multiplexed} {frame : RemoteFrame} {id : RemoteStreamId} {data : List UInt8}
      {state : SubstreamState} (htook : Took m frame m₁) (hframe : frame.frame = .data id data)
      (hstate : m.substreams.get? id.intoLocal = some state) (hopen : state.recvOpen)
      (hbuf : state.recvBuf = []) : Move m (some (id.intoLocal, data)) m₁
  | closed {m₁ : Multiplexed} {frame : RemoteFrame} {id : RemoteStreamId} (htook : Took m frame m₁)
      (hframe : frame.frame = .close id) : Move m none (m₁.onClose id.intoLocal)
  | reset {m₁ : Multiplexed} {frame : RemoteFrame} {id : RemoteStreamId} (htook : Took m frame m₁)
      (hframe : frame.frame = .reset id) : Move m none (m₁.onReset id.intoLocal)
  | read {id : LocalStreamId} {state : SubstreamState} {data : List UInt8} {buf : RecvBuf}
      (hstate : m.substreams.get? id = some state) (hbuf : state.recvBuf = data :: buf) :
      Move m (some (id, data)) ({ m with
        blockingStream := if m.blockingStream = some id then none else m.blockingStream }.setSubstream id
          (state.withBuf buf))
  | openOut {next : LocalStreamId} (hnext : m.nextOutboundStreamId.next = some next)
      (hroom : m.substreams.entries.length < m.config.maxSubstreams) (flushOpen : List LocalStreamId) :
      Move m none ((note { m with nextOutboundStreamId := next, pendingFlushOpen := flushOpen }
        (.opened m.nextOutboundStreamId)).setSubstream m.nextOutboundStreamId (.opened []))
  | sendClose {id : LocalStreamId} {buf : RecvBuf} (hstate : m.substreams.get? id = some (.opened buf)) :
      Move m none ((m.setSubstream id (.sendClosed buf)).note (.closed id))
  | sendCloseLast {id : LocalStreamId} {buf : RecvBuf} (hstate : m.substreams.get? id = some (.recvClosed buf)) :
      Move m none ((m.setSubstream id (.closed buf)).note (.closed id))

/-- A sequence of moves, and the data they deliver. -/
inductive Moves : Multiplexed → List (LocalStreamId × List UInt8) → Multiplexed → Prop where
  | nil (m : Multiplexed) : Moves m [] m
  | cons {m m' m'' : Multiplexed} {delivery : Option (LocalStreamId × List UInt8)}
      {deliveries : List (LocalStreamId × List UInt8)} (hmove : Move m delivery m')
      (hrest : Moves m' deliveries m'') : Moves m (delivery.toList ++ deliveries) m''

theorem Move.moves {delivery : Option (LocalStreamId × List UInt8)}
    (hm : Move m delivery m') : Moves m delivery.toList m' := by
  have ho := Moves.cons hm (.nil m')
  rwa [append_nil] at ho

theorem Quiet.moves (hq : Quiet m m') : Moves m [] m' := (Move.quiet hq).moves

theorem Moves.trans {deliveries deliveries' : List (LocalStreamId × List UInt8)}
    (hm : Moves m deliveries m') (hm' : Moves m' deliveries' m'') :
    Moves m (deliveries ++ deliveries') m'' := by
  induction hm with
  | nil => exact hm'
  | cons hmo hr ih =>
    rw [append_assoc]
    exact .cons hmo (ih hm')

/-- What every move keeps, next to the data delivered so far, holds after every sequence of moves. -/
theorem Moves.invariant {deliveries : List (LocalStreamId × List UInt8)}
    (hmo : Moves m deliveries m') (Inv : List (LocalStreamId × List UInt8) → Multiplexed → Prop)
    (hs : ∀ {past m delivery m'}, Inv past m → Move m delivery m' → Inv (past ++ delivery.toList) m')
    (past : List (LocalStreamId × List UInt8)) (hm : Inv past m) : Inv (past ++ deliveries) m' := by
  induction hmo generalizing past with
  | nil => rwa [append_nil]
  | cons hmv hr ih =>
    rw [← append_assoc]
    exact ih _ (hs hm hmv)

theorem Attempt.moves (ha : Attempt m result) : Moves m [] result.2 := by
  cases ha with
  | pending h | ok a h => exact h.moves
  | failed e h hc => exact (Move.fail h (.inr hc)).moves

section Loop

variable {interest : Option LocalStreamId} {stop : Multiplexed → Option α}
  {handle : Frame RemoteStreamId → Multiplexed → Handled α} (Good : Multiplexed → Prop)
  (deliveries : α → List (LocalStreamId × List UInt8)) (Post : α → Multiplexed → Prop)

def Answers (m : Multiplexed) (answer : Poll α) (m' : Multiplexed) : Prop :=
  match answer with
  | .ready (.ok a) => Moves m (deliveries a) m' ∧ Post a m'
  | .ready (.error _) => Moves m [] m'
  | .pending => Moves m [] m'

/-- What is known when a loop has dealt with a frame. -/
def HandledWell (m : Multiplexed) : Handled α → Prop
  | .done result m' => Answers deliveries Post m (.ready result) m'
  | .more _ m' => Moves m [] m' ∧ Good m' ∧ m'.status = .opened ∧ m'.io.inbound.length < m.io.inbound.length

variable {Good deliveries Post}

theorem Answers.after {m m' m'' : Multiplexed} {ans : Poll α} (hm : Moves m [] m')
    (ha : Answers deliveries Post m' ans m'') : Answers deliveries Post m ans m'' := by
  match ans, ha with
  | .ready (.ok a), ha => exact ⟨hm.trans ha.1, ha.2⟩
  | .ready (.error e), ha | .pending, ha => exact hm.trans ha

theorem frameLoop_answers (hq : ∀ {m m'}, Quiet m m' → Good m → Good m')
    (hstQ : ∀ {m m'}, Quiet m m' → stop m' = stop m)
    (hs : ∀ {m a}, Good m → stop m = some a → deliveries a = [] ∧ Post a m)
    (hh : ∀ {m m₁ frame}, Good m → m.status = .opened → stop m = none → Took m frame m₁ →
      HandledWell Good deliveries Post m (handle frame.frame m₁))
    {fuel numBuffered : Nat} {m : Multiplexed} (hg : Good m) (hst : m.status = .opened)
    (hf : m.io.inbound.length < fuel) :
    ∃ ans m', frameLoop interest stop handle fuel numBuffered m = .ok (ans, m') ∧
      Answers deliveries Post m ans m' := by
  -- Every turn after which the loop goes on has taken a frame, so the frames that wait bound the turns.
  induction fuel generalizing numBuffered m with
  | zero => exact absurd hf (Nat.not_lt_zero _)
  | succ fuel ih =>
    rw [frameLoop]
    split_ifs
    · exact ⟨_, _, rfl, .nil m⟩
    cases ha : stop m with
    | some =>
      obtain ⟨hn, hp⟩ := hs hg ha
      refine ⟨_, _, rfl, ?_, hp⟩
      rw [hn]
      exact .nil m
    | none =>
      have hr := readCase_pollReadFrame hst interest
      generalize m.pollReadFrame interest = result at hr ⊢
      cases hr with
      | pending h => exact ⟨_, _, rfl, h.moves⟩
      | failed e h hc => exact ⟨_, _, rfl, (Move.fail h hc).moves⟩
      | @took m₁ m' frame h ht =>
        have hw := hh (hq h hg) (h.status.trans hst) ((hstQ h).trans ha) ht
        simp only
        generalize handle frame.frame m' = handled at hw ⊢
        cases handled with
        | done => exact ⟨_, _, rfl, hw.after h.moves⟩
        | more buffered m'' =>
          obtain ⟨hm, hg', hst', hl⟩ := hw
          have hf' : m''.io.inbound.length < fuel := by
            rw [h.inbound] at hl
            exact hl.trans_le (Nat.le_of_lt_succ hf)
          obtain ⟨ans, last, hre, han⟩ := ih hg' hst' hf'
          exact ⟨ans, last, hre, han.after (h.moves.trans hm)⟩

end Loop
end Multiplexed
end RustLibp2p.Mplex
