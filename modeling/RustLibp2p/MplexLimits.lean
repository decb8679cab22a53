import RustLibp2p.MplexCalls
import RustLibp2p.Transition

/-! What a connection may hold. No call lets the substreams or the control frames that are queued grow
beyond their limit, and a connection that is no longer open holds nothing. -/

namespace RustLibp2p.Mplex

namespace Multiplexed

/-- The connection keeps within its limits, and holds nothing once it is no longer open. -/
structure Bounded (config : Config) (m : Multiplexed) : Prop where
  config_eq : m.config = config
  substreams_le : m.substreams.entries.length ≤ config.maxSubstreams
  pendingFrames_le : m.pendingFrames.length ≤ config.maxSubstreams + extraPendingFrames
  ended : m.status ≠ .opened → m.substreams = .empty ∧ m.pendingFrames = [] ∧ m.openBuffer = []

/-- The connection is open and keeps within its limits. -/
structure Live (config : Config) (m : Multiplexed) : Prop where
  bounded : Bounded config m
  opened : m.status = .opened

variable {config : Config} {m m' : Multiplexed}

theorem bounded_new (config : Config) : Bounded config (new config) := by
  refine ⟨rfl, Nat.zero_le _, Nat.zero_le _, ?_⟩
  intro _
  exact ⟨rfl, rfl, rfl⟩

theorem Bounded.withIo (hm : Bounded config m) (io : Io) (flushOpen : List LocalStreamId) (history : List Event) :
    Bounded config { m with io, pendingFlushOpen := flushOpen, history } :=
  { hm with }

variable {e : IoError} {interest : Option LocalStreamId} {answer : Poll LocalStreamId} {output : MplexOutput}

theorem bounded_onError (hc : m.config = config) : Bounded config (m.onError e) := by
  refine ⟨hc, Nat.zero_le _, Nat.zero_le _, ?_⟩
  intro _
  exact ⟨rfl, rfl, rfl⟩

variable {id : LocalStreamId} {state : SubstreamState} {α : Type}

/-! ### Substreams and frames that are added -/

/-- The answer of a step that may fail: an open connection stays open unless the answer is an error. -/
def Keeps {α : Type} (config : Config) (result : Except IoError α × Multiplexed) : Prop :=
  Bounded config result.2 ∧ ∀ a, result.1 = .ok a → result.2.status = .opened

theorem keeps_ok {a : α} (hm : Live config m) : Keeps config (.ok a, m) := ⟨hm.bounded, fun _ _ => hm.opened⟩

theorem keeps_error (hm : Bounded config m) : Keeps config ((.error e, m) : Except IoError α × Multiplexed) :=
  ⟨hm, nofun⟩

theorem checkMaxPendingFrames_cases (m : Multiplexed) : (∃ e, m.checkMaxPendingFrames = (.error e, m.onError e)) ∨
      m.checkMaxPendingFrames = (.ok (), m) ∧ m.pendingFrames.length < m.config.maxSubstreams + extraPendingFrames := by
  unfold checkMaxPendingFrames
  split_ifs with hf
  · exact .inl ⟨_, rfl⟩
  · exact .inr ⟨rfl, Nat.lt_of_not_le hf⟩

section

variable (hm : Live config m)
include hm

theorem Live.withSubstreams {substreams : OrdMap LocalStreamId SubstreamState}
    (hlen : substreams.entries.length ≤ config.maxSubstreams) : Live config { m with substreams } :=
  ⟨⟨hm.bounded.config_eq, hlen, hm.bounded.pendingFrames_le, absurd hm.opened⟩, hm.opened⟩

theorem Live.addSubstream (hr : m.substreams.entries.length < config.maxSubstreams)
    (id : LocalStreamId) (state : SubstreamState) : Live config (m.setSubstream id state) :=
  hm.withSubstreams ((OrdMap.length_insert_le _ _ _).trans hr)

theorem Live.setSubstream (hstt : m.substreams.get? id = some state) (st' : SubstreamState) :
    Live config (m.setSubstream id st') :=
  hm.withSubstreams ((OrdMap.length_insert_of_get? hstt st').le.trans hm.bounded.substreams_le)

theorem Live.removeSubstream (id : LocalStreamId) : Live config (m.removeSubstream id) :=
  hm.withSubstreams ((OrdMap.length_erase_le _ _).trans hm.bounded.substreams_le)

theorem Live.pushPendingFrame (hr : m.pendingFrames.length < config.maxSubstreams + extraPendingFrames)
    (frame : Frame LocalStreamId) :
    Live config (m.pushPendingFrame frame) where
  __ := hm
  bounded := by
    refine ⟨hm.bounded.config_eq, hm.bounded.substreams_le, ?_, absurd hm.opened⟩
    rw [Multiplexed.pushPendingFrame, List.length_append]
    exact hr

theorem Live.note (ev : Event) : Live config (m.note ev) := ⟨hm.bounded.withIo _ _ _, hm.opened⟩

theorem keeps_onOpen (id : RemoteStreamId) : Keeps config (m.onOpen id) := by
  have hc := hm.bounded.config_eq
  simp only [onOpen]
  split_ifs with hk hf
  · exact keeps_error (bounded_onError hc)
  · rcases checkMaxPendingFrames_cases m with ⟨_, hch⟩ | ⟨hch, hr⟩
    · rw [hch]
      exact keeps_error (bounded_onError hc)
    · rw [hch]
      exact keeps_ok (hm.pushPendingFrame (hc ▸ hr) _)
  · have hr : m.substreams.entries.length < config.maxSubstreams := hc ▸ Nat.lt_of_not_le hf
    exact keeps_ok ((hm.addSubstream hr _ _).note _)

theorem live_onReset (id : LocalStreamId) : Live config (m.onReset id) := by
  unfold onReset
  split
  next => exact hm.removeSubstream id
  next => exact hm.removeSubstream id
  next hstt => exact hm.setSubstream hstt _
  next hstt => exact hm.setSubstream hstt _
  next hstt => exact hm.setSubstream hstt _
  next => exact hm

theorem live_onClose (id : LocalStreamId) : Live config (m.onClose id) := by
  unfold onClose
  split
  next hstt => exact hm.setSubstream hstt _
  next hstt => exact hm.setSubstream hstt _
  next hstt => exact hm.setSubstream hstt _
  next hstt => exact hm.setSubstream hstt _
  next hstt => exact hm.setSubstream hstt _
  next => exact hm

theorem keeps_onFullBuffer (hstt : m.substreams.get? id = some state) (buf : RecvBuf) : Keeps config
    (m.onFullBuffer id buf) := by
  have hc := hm.bounded.config_eq
  unfold onFullBuffer
  split
  next =>
    rcases checkMaxPendingFrames_cases m with ⟨_, hch⟩ | ⟨hch, hr⟩
    · rw [hch]
      exact keeps_error (bounded_onError hc)
    · rw [hch]
      exact keeps_ok (((hm.setSubstream hstt _).pushPendingFrame (hc ▸ hr) _).note _)
  next =>
    obtain ⟨⟨hc, hsub, hf, he⟩, ho⟩ := hm
    exact keeps_ok ⟨⟨hc, hsub, hf, he⟩, ho⟩

theorem keeps_buffer (id : LocalStreamId) (data : List UInt8) : Keeps config (m.buffer id data) := by
  unfold buffer
  split
  next => exact keeps_ok hm
  next hstt =>
    split_ifs with ho
    · simp only
      split_ifs
      · exact keeps_onFullBuffer (hm.setSubstream hstt _) (get?_setSubstream_self ..) _
      · exact keeps_ok (hm.setSubstream hstt _)
    · exact keeps_ok hm

end

theorem bounded_pollSendFrame (hm : Bounded config m) (frame : Frame LocalStreamId) :
    Bounded config (m.pollSendFrame frame).2 := by
  unfold pollSendFrame
  split
  next => exact hm
  next => exact hm.withIo _ _ _
  next e _ _ => exact bounded_onError hm.config_eq

theorem bounded_sendFrames {frames : List (Frame LocalStreamId)} (hm : Live config m)
    (hf : frames.length ≤ config.maxSubstreams + extraPendingFrames) : Bounded config (sendFrames frames m).2 := by
  induction frames generalizing m with
  | nil => exact ⟨hm.bounded.config_eq, hm.bounded.substreams_le, Nat.zero_le _, absurd hm.opened⟩
  | cons frame frames ih =>
    have hfe : frames.length ≤ config.maxSubstreams + extraPendingFrames := (Nat.le_succ _).trans hf
    unfold sendFrames pollSendFrame
    cases m.io.sends with
    | nil => exact ⟨hm.bounded.config_eq, hm.bounded.substreams_le, hf, absurd hm.opened⟩
    | cons answer =>
      cases answer with
      | done => refine ih ⟨⟨hm.bounded.config_eq, hm.bounded.substreams_le, hfe, absurd hm.opened⟩, hm.opened⟩ hfe
      | err => exact bounded_onError hm.bounded.config_eq

theorem bounded_sendPendingFrames (hm : Live config m) : Bounded config m.sendPendingFrames.2 :=
  bounded_sendFrames hm hm.bounded.pendingFrames_le

theorem bounded_readyOk {β : Type} {res : Poll α × Multiplexed} {f : α → Multiplexed → Poll β × Multiplexed}
    (hr : Bounded config res.2) (hf : ∀ a m, Bounded config m → Bounded config (f a m).2) :
    Bounded config (readyOk res f).2 := by
  obtain ⟨answer, m⟩ := res
  cases answer with
  | pending => exact hr
  | ready answer =>
    cases answer with
    | error => exact hr
    | ok a => exact hf a m hr

theorem bounded_pollFlush (hm : Bounded config m) : Bounded config m.pollFlush.2 := by
  unfold pollFlush
  split
  next => exact hm
  next => exact hm
  next hs =>
    refine bounded_readyOk (bounded_sendPendingFrames ⟨hm, hs⟩) fun _ m hm => ?_
    split
    next => exact hm
    next => exact hm.withIo _ _ _
    next e _ _ => exact bounded_onError hm.config_eq

theorem bounded_pollClose (hm : Bounded config m) : Bounded config m.pollClose.2 := by
  unfold pollClose
  split
  next => exact hm
  next => exact hm
  next =>
    split
    next => exact hm
    next e _ _ => exact bounded_onError hm.config_eq
    next => exact ⟨hm.config_eq, Nat.zero_le _, Nat.zero_le _, fun _ => ⟨rfl, rfl, rfl⟩⟩

theorem bounded_takeFrame (hm : Bounded config m) : Bounded config m.takeFrame.2 := by
  unfold takeFrame
  split
  next => exact hm
  next =>
    split
    next => exact hm
    next => exact hm.withIo _ _ _
    next e _ _ => exact bounded_onError hm.config_eq
    next => exact bounded_onError hm.config_eq

theorem bounded_pollReadFrame (hm : Live config m) (interest : Option LocalStreamId) :
    Bounded config (m.pollReadFrame interest).2 := by
  have hs := bounded_sendPendingFrames hm
  unfold pollReadFrame
  generalize m.sendPendingFrames = result at hs ⊢
  obtain ⟨answer, m'⟩ := result
  have ht : Bounded config (if interest.any fun id => m'.pendingFlushOpen.contains id then
      readyOk m'.pollFlush fun _ m => takeFrame { m with pendingFlushOpen := [] } else m'.takeFrame).2 := by
    split_ifs
    · refine bounded_readyOk (bounded_pollFlush hs) fun _ m hm => ?_
      exact bounded_takeFrame (hm.withIo _ _ _)
    · exact bounded_takeFrame hs
  cases answer with
  | pending => exact ht
  | ready answer =>
    cases answer with
    | error => exact hs
    | ok => exact ht

theorem live_of_pollReadFrame (hm : Live config m) {frame : Frame RemoteStreamId}
    (hr : m.pollReadFrame interest = (.ready (.ok frame), m')) : Live config m' := by
  have hb := bounded_pollReadFrame hm interest
  have hc := readCase_pollReadFrame hm.opened interest
  rw [hr] at hb hc
  refine ⟨hb, ?_⟩
  cases hc with
  | took hq ht => rw [ht.status, hq.status, hm.opened]

def Handled.Keeps {α : Type} (config : Config) : Handled α → Prop
  | .done _ m => Bounded config m
  | .more _ m => Live config m

theorem keeps_handleData (hm : Live config m) (id : LocalStreamId) (data : List UInt8) :
    Handled.Keeps config (m.handleData id data : Handled α) := by
  have hk := keeps_buffer hm id data
  unfold handleData
  split
  next hb =>
    rw [hb] at hk
    exact hk.1
  next hb =>
    rw [hb] at hk
    exact ⟨hk.1, hk.2 () rfl⟩

theorem keeps_handleNext (hm : Live config m) (frame : Frame RemoteStreamId) :
    Handled.Keeps config (handleNext frame m) := by
  cases frame with
  | opened id =>
    have hk := keeps_onOpen hm id
    rw [handleNext]
    generalize m.onOpen id = result at hk ⊢
    obtain ⟨answer, _⟩ := result
    cases answer with
    | error => exact hk.1
    | ok accepted =>
      cases accepted with
      | none => exact ⟨hk.1, hk.2 _ rfl⟩
      | some => exact hk.1
  | data id data => exact keeps_handleData hm _ data
  | close => exact live_onClose hm _
  | reset => exact live_onReset hm _

theorem keeps_handleRead (hm : Live config m) (id : LocalStreamId) (frame : Frame RemoteStreamId) :
    Handled.Keeps config (handleRead id frame m) := by
  cases frame with
  | opened streamId =>
    have hk := keeps_onOpen hm streamId
    rw [handleRead]
    generalize m.onOpen streamId = result at hk ⊢
    obtain ⟨answer, m'⟩ := result
    cases answer with
    | error => exact hk.1
    | ok accepted =>
      obtain ⟨hb, ho⟩ : Live config m' := ⟨hk.1, hk.2 _ rfl⟩
      cases accepted with
      | none => exact ⟨hb, ho⟩
      | some =>
        refine ⟨{ hb with ended := ?_ }, ho⟩
        exact absurd ho
  | data streamId data =>
    rw [handleRead]
    split_ifs
    · exact hm.bounded
    · exact keeps_handleData hm _ data
  | close =>
    simp only [handleRead]
    split_ifs
    · exact (live_onClose hm _).bounded
    · exact live_onClose hm _
  | reset =>
    simp only [handleRead]
    split_ifs
    · exact (live_onReset hm _).bounded
    · exact live_onReset hm _

theorem bounded_frameLoop {stop : Multiplexed → Option α} {handle : Frame RemoteStreamId → Multiplexed → Handled α}
    (hh : ∀ frame m, Live config m → Handled.Keeps config (handle frame m)) {fuel numBuffered : Nat}
    {answer : Poll α} (hm : Live config m)
    (hl : frameLoop interest stop handle fuel numBuffered m = .ok (answer, m')) : Bounded config m' := by
  induction fuel generalizing numBuffered m with
  | zero => cases hl
  | succ fuel ih =>
    have hb := bounded_pollReadFrame hm interest
    rw [frameLoop] at hl
    split_ifs at hl
    · cases hl
      exact hm.bounded
    split at hl
    next =>
      cases hl
      exact hm.bounded
    next =>
      split at hl
      next hr =>
        cases hl
        rw [hr] at hb
        exact hb
      next hr =>
        cases hl
        rw [hr] at hb
        exact hb
      next frame m₁ hr =>
        have hk := hh frame m₁ (live_of_pollReadFrame hm hr)
        split at hl
        next hd =>
          cases hl
          rw [hd] at hk
          exact hk
        next hmo =>
          rw [hmo] at hk
          exact ih hk hl

theorem bounded_pollNextStream (hm : Bounded config m)
    (hn : m.pollNextStream = .ok (answer, m')) : Bounded config m' := by
  unfold pollNextStream at hn
  split at hn
  next =>
    cases hn
    exact hm
  next hg =>
    have ho := guardOpen_eq_ok hg
    split at hn
    next =>
      cases hn
      exact { hm with ended := absurd ho }
    next => exact bounded_frameLoop (fun frame _ hm => keeps_handleNext hm frame) ⟨hm, ho⟩ hn

theorem bounded_pollReadStream (hm : Bounded config m) {answer : Poll (Option (List UInt8))}
    (hr : m.pollReadStream id = .ok (answer, m')) : Bounded config m' := by
  unfold pollReadStream at hr
  split at hr
  next =>
    cases hr
    exact hm
  next hg =>
    have hl : Live config m := ⟨hm, guardOpen_eq_ok hg⟩
    have hlo : m.readLoop id = .ok (answer, m') → Bounded config m' :=
      bounded_frameLoop (fun frame _ hm => keeps_handleRead hm id frame) hl
    split at hr
    next => exact hlo hr
    next state hstt =>
      split at hr
      next => exact hlo hr
      next =>
        cases hr
        obtain ⟨⟨hc, hsub, hf, he⟩, _⟩ := hl.setSubstream hstt (state.withBuf _)
        exact ⟨hc, hsub, hf, he⟩

theorem bounded_pollOpenStream (hm : Bounded config m)
    (ho : m.pollOpenStream = .ok (answer, m')) : Bounded config m' := by
  unfold pollOpenStream at ho
  split at ho
  next =>
    cases ho
    exact hm
  next hg =>
    have hl : Live config m := ⟨hm, guardOpen_eq_ok hg⟩
    split_ifs at ho with hf
    · cases ho
      exact hm
    have hr : m.substreams.entries.length < config.maxSubstreams := hm.config_eq ▸ Nat.lt_of_not_le hf
    have hs := bounded_pollSendFrame hm (.opened m.nextOutboundStreamId)
    have hc := attempt_pollSendFrame m (.opened m.nextOutboundStreamId)
    simp only at ho
    split at ho
    next hse =>
      cases ho
      rw [hse] at hs
      exact hs
    next hse =>
      cases ho
      rw [hse] at hs
      exact hs
    next m₁ hse =>
      rw [hse] at hs hc
      split at ho
      next => cases ho
      next next hn =>
        cases ho
        obtain ⟨hst, hsub⟩ : m₁.status = .opened ∧ m₁.substreams = m.substreams := by
          cases hc with
          | ok _ hq => exact ⟨hq.status.trans hl.opened, hq.substreams⟩
        have hnot : Live config (note { m₁ with
            nextOutboundStreamId := next
            pendingFlushOpen := m.nextOutboundStreamId :: m₁.pendingFlushOpen }
            (.opened m.nextOutboundStreamId)) :=
          ⟨{ hs with }, hst⟩
        refine (hnot.addSubstream ?_ _ _).bounded
        rw [hsub]
        exact hr

theorem bounded_pendFinal (hm : Live config m) (frame : Frame LocalStreamId) : Bounded config (m.pendFinal frame) := by
  have hc := hm.bounded.config_eq
  unfold pendFinal
  rcases checkMaxPendingFrames_cases m with ⟨_, hch⟩ | ⟨hch, hr⟩
  · rw [hch]
    exact bounded_onError hc
  · rw [hch]
    exact (hm.pushPendingFrame (hc ▸ hr) frame).bounded

theorem bounded_dropStream (hm : Bounded config m) (id : LocalStreamId) : Bounded config (m.dropStream id) := by
  unfold dropStream
  split
  next => exact hm
  next => exact hm
  next hs =>
    have hr := (Live.removeSubstream ⟨hm, hs⟩ id).note (.dropped id)
    split
    next => exact hm
    next state hstt =>
      cases state with
      | opened | recvClosed => exact bounded_pendFinal hr _
      | sendClosed | closed | reset => exact hr.bounded

theorem bounded_pollWriteStream (hm : Bounded config m) (id : LocalStreamId) (buf : List UInt8) :
    Bounded config (m.pollWriteStream id buf).2 := by
  have hs : ∀ frame len, Bounded config
      (readyOk (m.pollSendFrame frame) fun _ m => (Poll.ready (.ok len), m) : Poll Nat × Multiplexed).2 :=
    fun frame len => bounded_readyOk (bounded_pollSendFrame hm frame) fun _ _ hm => hm
  unfold pollWriteStream
  split
  next => exact hm
  next =>
    split
    next => exact hm
    next => exact hm
    next => exact hm
    next => exact hm
    next => exact hs _ _
    next => exact hs _ _

theorem bounded_pollFlushStream (hm : Bounded config m) : Bounded config m.pollFlushStream.2 := by
  unfold pollFlushStream
  split
  next => exact hm
  next => exact bounded_readyOk (bounded_pollFlush hm) fun _ _ hm => hm

section

variable (hm : Live config m) (hstt : m.substreams.get? id = some state)
include hm hstt

theorem Live.putBack {st' : SubstreamState} (hc : m'.config = config) (hs : m'.status = m.status)
    (hsub : m'.substreams = (m.removeSubstream id).substreams) (hf : m'.pendingFrames = m.pendingFrames) :
    Bounded config (m'.setSubstream id st') := by
  refine ⟨hc, ?_, hf ▸ hm.bounded.pendingFrames_le, absurd (hs.trans hm.opened)⟩
  have hi : (m'.setSubstream id st').substreams = (m.setSubstream id st').substreams := by
    rw [Multiplexed.setSubstream, hsub]
    exact OrdMap.insert_erase _ _ _
  rw [hi]
  exact (hm.setSubstream hstt st').bounded.substreams_le

theorem bounded_closeWith (pend closed : SubstreamState) : Bounded config (m.closeWith id pend closed).2 := by
  have hc := hm.bounded.config_eq
  unfold closeWith pollSendFrame
  cases hs : (m.removeSubstream id).io.sends with
  | nil => exact hm.putBack hstt hc rfl rfl rfl
  | cons answer =>
    cases answer with
    | done =>
      have hse : ∀ io, Bounded config (({ m.removeSubstream id with io }).setSubstream id closed) :=
        fun io => hm.putBack hstt hc rfl rfl rfl
      exact (Live.note ⟨hse _, hm.opened⟩ _).bounded
    | err => exact bounded_onError hc

end

theorem bounded_pollCloseStream (hm : Bounded config m) (id : LocalStreamId) :
    Bounded config (m.pollCloseStream id).2 := by
  unfold pollCloseStream
  split
  next => exact hm
  next hg =>
    have hl : Live config m := ⟨hm, guardOpen_eq_ok hg⟩
    split
    next => exact hm
    next hstt => exact hl.putBack hstt hm.config_eq rfl rfl rfl
    next hstt => exact hl.putBack hstt hm.config_eq rfl rfl rfl
    next hstt => exact hl.putBack hstt hm.config_eq rfl rfl rfl
    next hstt => exact bounded_closeWith hl hstt _ _
    next hstt => exact bounded_closeWith hl hstt _ _

theorem eq_ok_of_map_eq_ok {β ε : Type} {f : α → β} {res : Except ε α} {b : β}
    (hmap : res.map f = .ok b) : ∃ a, res = .ok a ∧ f a = b := by
  cases res with
  | error => cases hmap
  | ok a => exact ⟨a, rfl, Except.ok.inj hmap⟩

theorem bounded_act (hm : Bounded config m) {call : MplexCall}
    (ha : m.act call = .ok (output, m')) : Bounded config m' := by
  cases call with
  | receive =>
    cases ha
    exact hm.withIo _ _ _
  | pollNextStream =>
    obtain ⟨_, hn, hr⟩ := eq_ok_of_map_eq_ok ha
    cases hr
    exact bounded_pollNextStream hm hn
  | pollOpenStream =>
    obtain ⟨_, ho, hr⟩ := eq_ok_of_map_eq_ok ha
    cases hr
    exact bounded_pollOpenStream hm ho
  | pollReadStream =>
    obtain ⟨_, hre, hr⟩ := eq_ok_of_map_eq_ok ha
    cases hr
    exact bounded_pollReadStream hm hre
  | dropStream id =>
    cases ha
    exact bounded_dropStream hm id
  | pollWriteStream id buf =>
    cases ha
    exact bounded_pollWriteStream hm id buf
  | pollFlushStream =>
    cases ha
    exact bounded_pollFlushStream hm
  | pollCloseStream id =>
    cases ha
    exact bounded_pollCloseStream hm id
  | pollFlush =>
    cases ha
    exact bounded_pollFlush hm
  | pollClose =>
    cases ha
    exact bounded_pollClose hm

theorem bounded_exec (hm : Bounded config m) {inp : MplexInput}
    (he : m.exec inp = .ok (output, m')) : Bounded config m' :=
  bounded_act (m := m.withAnswers inp) (hm.withIo _ _ _) he

end Multiplexed

/-! The limits of a connection over whole runs: what it holds, the numbers it gives to outbound substreams, and
what is left of it after an error. -/

open Transition Option

variable {id : LocalStreamId}

namespace Multiplexed

variable {m m' : Multiplexed}

/-- Numbers are only given away in ascending order. -/
def Forward (m m' : Multiplexed) : Prop := m.nextOutboundStreamId.num ≤ m'.nextOutboundStreamId.num

theorem Forward.of_eq (hneI : m'.nextOutboundStreamId = m.nextOutboundStreamId) : Forward m m' := by
  rw [Forward, hneI]

theorem Took.forward {frame : RemoteFrame} (ht : Took m frame m') : Forward m m' := .of_eq ht.nextId

theorem Forward.trans {m'' : Multiplexed} (h : Forward m m') (h' : Forward m' m'') : Forward m m'' := Nat.le_trans h h'

theorem forward_move {delivery : Option (LocalStreamId × List UInt8)} (hm : Move m delivery m') : Forward m m' := by
  cases hm with
  | quiet hq => exact .of_eq hq.nextId
  | fail hf => exact .of_eq hf.nextId
  | opened ht _ ho =>
    apply ht.forward.trans
    cases ho with
    | failed _ hf => exact .of_eq hf.nextId
    | refused hq => exact .of_eq hq.nextId
    | accepted => exact .of_eq rfl
  | buffered ht _ hb =>
    apply ht.forward.trans
    cases hb with
    | failed _ hf => exact .of_eq hf.nextId
    | overflowed _ _ hq => exact .of_eq hq.nextId
    | ignored | kept | blocked => exact .of_eq rfl
  | delivered ht => exact ht.forward
  | closed ht => exact ht.forward.trans (.of_eq (onlySubstreams_onClose _ _).nextId)
  | reset ht => exact ht.forward.trans (.of_eq (onlySubstreams_onReset _ _).nextId)
  | openOut hn =>
    rw [LocalStreamId.next, ite_none_right_eq_some, some_inj] at hn
    obtain ⟨-, rfl⟩ := hn
    exact Nat.le_succ _
  | read | sendClose | sendCloseLast => exact .of_eq rfl

theorem forward_exec {input : MplexInput} {output : MplexOutput} (he : m.exec input = .ok (output, m')) :
    Forward m m' := by
  have hs : Forward m (m.withAnswers input) := .of_eq rfl
  have hc := actCase_exec he
  generalize input.call = call at hc
  cases hc with
  | receive => exact .of_eq rfl
  | drop hd =>
    cases hd with
    | ignored => exact hs
    | dropped hq => exact .of_eq hq.nextId
    | failed hf => exact .of_eq hf.nextId
  | close hcl =>
    cases hcl with
    | ignored => exact hs
    | finished _ _ _ hneI => exact .of_eq hneI
  | moves _ hm =>
    exact hm.invariant (fun _ m' => Forward m m') (fun h hmo => h.trans (forward_move hmo)) [] hs

theorem pollOpenStream_ready (ho : m.pollOpenStream = .ok (.ready (.ok id), m')) :
    id = m.nextOutboundStreamId ∧ m'.nextOutboundStreamId = ⟨id.num + 1, id.role⟩ := by
  unfold pollOpenStream at ho
  split at ho
  next => cases ho
  next =>
    split_ifs at ho
    · cases ho
    simp only at ho
    split at ho
    next => cases ho
    next => cases ho
    next =>
      split at ho
      next => cases ho
      next hn =>
        cases ho
        rw [LocalStreamId.next, ite_none_right_eq_some, some_inj] at hn
        exact ⟨rfl, hn.2.symm⟩

end Multiplexed

def outboundId : MplexInput × MplexOutput → Option LocalStreamId
  | (⟨.pollOpenStream, _, _, _⟩, .stream (.ready (.ok id))) => some id
  | _ => none

def outboundIds (inputs : List MplexInput) (outputs : List MplexOutput) : List LocalStreamId :=
  (inputs.zip outputs).filterMap outboundId

namespace Multiplexed

variable {m m' : Multiplexed} {input : MplexInput} {output : MplexOutput}

theorem exec_outboundId
    (he : m.exec input = .ok (output, m')) (hid : outboundId (input, output) = some id) :
    id = m.nextOutboundStreamId ∧ m'.nextOutboundStreamId.num = id.num + 1 := by
  obtain ⟨_, _, _, _⟩ := input
  unfold outboundId at hid
  split at hid
  next heq =>
    cases hid
    cases heq
    obtain ⟨res, ho, hr⟩ := eq_ok_of_map_eq_ok he
    obtain ⟨_, _⟩ := res
    cases hr
    obtain ⟨hid, hn⟩ := pollOpenStream_ready ho
    exact ⟨hid, by rw [hn]⟩
  next => cases hid

/-- All numbers given so far are below the next one, and no two are the same. -/
structure Numbered (inputs : List MplexInput) (outputs : List MplexOutput) (m : Multiplexed) : Prop where
  length_eq : inputs.length = outputs.length
  below : ∀ id ∈ outboundIds inputs outputs, id.num < m.nextOutboundStreamId.num
  nodup : (outboundIds inputs outputs).Nodup

theorem numbered_exec {inputs : List MplexInput} {outs : List MplexOutput} (hm : Numbered inputs outs m)
    (he : m.exec input = .ok (output, m')) : Numbered (inputs ++ [input]) (outs ++ [output]) m' := by
  have hi : outboundIds (inputs ++ [input]) (outs ++ [output]) =
      outboundIds inputs outs ++ (outboundId (input, output)).toList := by
    rw [outboundIds, List.zip_append hm.length_eq, List.filterMap_append]
    cases hid : outboundId (input, output) with
    | none | some => simp [outboundIds, hid]
  have hl : ∀ id ∈ outboundIds inputs outs, id.num < m'.nextOutboundStreamId.num :=
    fun id hid => (hm.below id hid).trans_le (forward_exec he)
  refine ⟨by simp [hm.length_eq], ?_, ?_⟩
  · intro id hid
    rw [hi, List.mem_append, mem_toList] at hid
    rcases hid with hid | hid
    · exact hl id hid
    · rw [(exec_outboundId he hid).2]
      exact Nat.lt_succ_self _
  · rw [hi]
    refine List.Nodup.append hm.nodup ?_ ?_
    · cases outboundId (input, output) <;> simp
    intro id ho hn
    have heq := (exec_outboundId he (mem_toList.1 hn)).1
    rw [heq] at ho
    exact lt_irrefl _ (hm.below _ ho)

end Multiplexed

/-- What a call returns on a connection that has failed: the error, if it returns anything. -/
def MplexCall.refusal (e : IoError) : MplexCall → MplexOutput
  | .receive _ => .none
  | .dropStream _ => .none
  | .pollNextStream => .stream (.ready (.error e))
  | .pollOpenStream => .stream (.ready (.error e))
  | .pollReadStream id => .read id (.ready (.error e))
  | .pollWriteStream _ _ => .written (.ready (.error e))
  | .pollFlushStream _ => .done (.ready (.error e))
  | .pollCloseStream _ => .done (.ready (.error e))
  | .pollFlush => .done (.ready (.error e))
  | .pollClose => .done (.ready (.error e))

namespace Multiplexed

variable {m : Multiplexed}

theorem act_of_err {e : IoError} (hs : m.status = .err e) (call : MplexCall) :
    ∃ m', m.act call = .ok (call.refusal e, m') ∧ m'.status = .err e := by
  have hg : m.guardOpen = .error e := by rw [guardOpen, hs]
  cases call with
  | receive => exact ⟨_, rfl, hs⟩
  | dropStream => exact ⟨_, rfl, by rw [dropStream, hs]; exact hs⟩
  | pollNextStream => exact ⟨m, by simp only [act, pollNextStream, hg]; rfl, hs⟩
  | pollOpenStream => exact ⟨m, by simp only [act, pollOpenStream, hg]; rfl, hs⟩
  | pollReadStream => exact ⟨m, by simp only [act, pollReadStream, hg]; rfl, hs⟩
  | pollWriteStream => exact ⟨m, by simp only [act, pollWriteStream, hg]; rfl, hs⟩
  | pollFlushStream => exact ⟨m, by simp only [act, pollFlushStream, hg]; rfl, hs⟩
  | pollCloseStream => exact ⟨m, by simp only [act, pollCloseStream, hg]; rfl, hs⟩
  | pollFlush => exact ⟨m, by simp only [act, pollFlush, hs]; rfl, hs⟩
  | pollClose => exact ⟨m, by simp only [act, pollClose, hs]; rfl, hs⟩

theorem run_of_err {e : IoError} (hs : m.status = .err e) (inputs : List MplexInput) :
    ∃ m', run exec m inputs = .ok (inputs.map fun input => input.call.refusal e, m') ∧ m'.status = .err e := by
  induction inputs generalizing m with
  | nil => exact ⟨m, rfl, hs⟩
  | cons input inputs ih =>
    obtain ⟨_, he, hm₁⟩ := act_of_err (m := m.withAnswers input) hs input.call
    obtain ⟨m', hr, hm'⟩ := ih hm₁
    exact ⟨m', by simp [run, exec, he, hr], hm'⟩

/-- Whatever the remote sends and whatever is called, in any order, the substreams and the queued control frames
keep within their limits and no outbound number is given twice. A connection that has failed has nothing left,
and every call from then on returns the error. -/
theorem run_keeps_limits (config : Config) (inputs : List MplexInput) {outputs : List MplexOutput} {m : Multiplexed}
    (hrun : run exec (new config) inputs = .ok (outputs, m)) : m.substreams.entries.length ≤ config.maxSubstreams ∧
      m.pendingFrames.length ≤ config.maxSubstreams + extraPendingFrames ∧
      (outboundIds inputs outputs).Nodup ∧
      ∀ e, m.status = .err e →
        m.substreams = .empty ∧ m.pendingFrames = [] ∧ m.openBuffer = [] ∧
          ∀ later, ∃ m', run exec m later = .ok (later.map fun input => input.call.refusal e, m') := by
  have ha : Along exec (fun _ _ => True) (new config) inputs := along_of_forall (fun _ _ => trivial) _ _
  have hl : Bounded config m :=
    run_invariant (fun _ _ _ _ hm _ he => bounded_exec hm he) (bounded_new config) ha hrun
  have hn : Numbered inputs outputs m :=
    run_trace (fun _ _ _ _ _ _ hm _ he => numbered_exec hm he) [] [] ⟨rfl, nofun, .nil⟩ ha hrun
  refine ⟨hl.substreams_le, hl.pendingFrames_le, hn.nodup, ?_⟩
  intro _ hs
  obtain ⟨hsub, hf, hb⟩ := hl.ended (by rw [hs]; nofun)
  refine ⟨hsub, hf, hb, ?_⟩
  intro later
  obtain ⟨m', hla, -⟩ := run_of_err hs later
  exact ⟨m', hla⟩

/-- Only one substream is allowed. One is opened here, the remote opens another one and then breaks off. -/
def crowdedInputs : List MplexInput :=
  [{ call := .pollOpenStream, sends := [.done] }, .remoteOpen 0, { call := .pollNextStream },
    { call := .receive .eof }, { call := .pollNextStream, sends := [.done] }]

theorem run_keeps_limits_crowded :
    ∃ outputs m m', run exec (new ⟨1, 32, .block, 8192⟩) crowdedInputs = .ok (outputs, m) ∧
      outboundIds crowdedInputs outputs = [.dialer 0] ∧ m.io.sent = [.opened (.dialer 0), .reset ⟨0, .listener⟩] ∧
      m.substreams.entries.length ≤ 1 ∧ m.pendingFrames = [] ∧
      run exec m [{ call := .pollOpenStream }] = .ok ([.stream (.ready (.error .unexpectedEof))], m') := by
  have hl := run_keeps_limits ⟨1, 32, .block, 8192⟩ crowdedInputs rfl
  obtain ⟨-, hf, -, hla⟩ := hl.2.2.2 .unexpectedEof rfl
  obtain ⟨m', hr⟩ := hla [{ call := .pollOpenStream }]
  exact ⟨_, _, m', rfl, by decide +kernel, by decide +kernel, hl.1, hf, hr⟩

end Multiplexed
end RustLibp2p.Mplex
