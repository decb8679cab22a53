import RustLibp2p.MplexMoves

/-! The calls on a multiplexed connection as sequences of moves. What a read of a substream returns is what the
moves deliver, and it returns the end of the stream only when nothing is buffered and nothing more is expected. -/

namespace RustLibp2p.Mplex

namespace Multiplexed

/-! ### Frames that are dealt with -/

variable {m m' : Multiplexed} {id : LocalStreamId} {data : List UInt8} {frame : RemoteFrame} {state : SubstreamState}
  {result : Option LocalStreamId} {id' : LocalStreamId} {m₁ : Multiplexed}

theorem OpenCase.unchanged
    (ho : OpenCase m id (.ok result, m')) : m'.status = m.status ∧ m'.io.inbound = m.io.inbound := by
  cases ho with
  | refused hq => exact ⟨hq.status, hq.inbound⟩
  | accepted => exact ⟨rfl, rfl⟩

theorem BufferCase.unchanged {u : Unit}
    (hb : BufferCase m id data (.ok u, m')) : m'.status = m.status ∧ m'.io.inbound = m.io.inbound := by
  cases hb with
  | ignored | kept | blocked => exact ⟨rfl, rfl⟩
  | overflowed _ _ hq => exact ⟨hq.status, hq.inbound⟩

theorem BufferCase.get?_of_ne {u : Unit} (hb : BufferCase m id data (.ok u, m'))
    (hne : id' ≠ id) : m'.substreams.get? id' = m.substreams.get? id' := by
  cases hb with
  | ignored => rfl
  | kept | blocked => exact get?_setSubstream_of_ne m hne _
  | overflowed _ _ hq => exact (hq.lookup id').trans (get?_setSubstream_of_ne m hne _)

theorem Took.inbound_length (htook : Took m frame m') : m'.io.inbound.length < m.io.inbound.length := by
  rw [htook.inbound]
  exact Nat.lt_succ_self _

section Loop

variable {α : Type} {Good : Multiplexed → Prop} {deliveries : α → List (LocalStreamId × List UInt8)}
  {Post : α → Multiplexed → Prop} {id : RemoteStreamId}

section

variable (hstt : m.status = .opened) (htook : Took m frame m₁)
include hstt htook

theorem handleData_well {data : List UInt8}
    (hf : frame.frame = .data id data) (hg : ∀ m', BufferCase m₁ id.intoLocal data (.ok (), m') → Good m') :
    HandledWell Good deliveries Post m (m₁.handleData id.intoLocal data) := by
  have hb := bufferCase_buffer m₁ id.intoLocal data
  rw [handleData]
  generalize m₁.buffer id.intoLocal data = outcome at hb ⊢
  obtain ⟨result, m'⟩ := outcome
  have hm := (Move.buffered htook hf hb).moves
  cases result with
  | error => exact hm
  | ok =>
    obtain ⟨hs, hi⟩ := hb.unchanged
    refine ⟨hm, hg m' hb, (hs.trans htook.status).trans hstt, ?_⟩
    rw [hi]
    exact htook.inbound_length

theorem handleEnd_well {m' : Multiplexed} (hm : Move m none m') (ho : OnlySubstreams m₁ m') (hg : Good m') :
    HandledWell Good deliveries Post m (.more 0 m') := by
  refine ⟨hm.moves, hg, (ho.status.trans htook.status).trans hstt, ?_⟩
  rw [ho.io]
  exact htook.inbound_length

theorem handleOpen_well {result : Option LocalStreamId} {m' m'' : Multiplexed} (hf : frame.frame = .opened id)
    (ho : OpenCase m₁ id.intoLocal (.ok result, m'))
    (hq : Quiet m' m'') (hg : Good m'') : HandledWell Good deliveries Post m (.more 0 m'') := by
  obtain ⟨hs, hi⟩ := ho.unchanged
  refine ⟨(Move.opened htook hf ho).moves.trans hq.moves, hg, ?_, ?_⟩
  · rw [hq.status, hs, htook.status, hstt]
  · rw [hq.inbound, hi]
    exact htook.inbound_length

end
end Loop

theorem handleNext_well (hstt : m.status = .opened) (htook : Took m frame m₁) :
    HandledWell (fun _ => True) (fun _ => []) (fun _ _ => True) m (handleNext frame.frame m₁) := by
  cases hf : frame.frame with
  | opened id =>
    have ho := openCase_onOpen m₁ id
    rw [handleNext]
    generalize m₁.onOpen id = outcome at ho ⊢
    obtain ⟨result, m'⟩ := outcome
    match result, ho with
    | .error e, ho => exact (Move.opened htook hf ho).moves
    | .ok (some new), ho => exact ⟨(Move.opened htook hf ho).moves, trivial⟩
    | .ok none, ho => exact handleOpen_well hstt htook hf ho (.refl m') trivial
  | data => exact handleData_well hstt htook hf fun _ _ => trivial
  | close => exact handleEnd_well hstt htook (.closed htook hf) (onlySubstreams_onClose ..) trivial
  | reset => exact handleEnd_well hstt htook (.reset htook hf) (onlySubstreams_onReset ..) trivial

theorem guardOpen_eq_ok (hg : m.guardOpen = .ok ()) : m.status = .opened := by
  unfold guardOpen at hg
  split at hg
  · cases hg
  · cases hg
  · assumption

theorem Answers.moves_nil {α : Type} {Post : α → Multiplexed → Prop} {ans : Poll α}
    (ha : Answers (fun _ => []) Post m ans m') : Moves m [] m' := by
  match ans, ha with
  | .ready (.ok a), ha => exact ha.1
  | .ready (.error e), ha | .pending, ha => exact ha

theorem moves_pollNextStream (m : Multiplexed) : ∃ ans m', m.pollNextStream = .ok (ans, m') ∧ Moves m [] m' := by
  unfold pollNextStream
  split
  next => exact ⟨_, _, rfl, .nil m⟩
  next hg =>
    split
    next => exact ⟨_, _, rfl, (quiet_queues m _ _ _).moves⟩
    next =>
      have hl : ∃ ans m', frameLoop none (fun _ => none) handleNext (m.io.inbound.length + 1) 0 m = .ok (ans, m') ∧
            Answers (fun _ => []) (fun _ _ => True) m ans m' :=
        frameLoop_answers (fun _ h => h) (fun _ => rfl) (by intro _ _ _ hn; cases hn)
          (fun _ hstt _ htook => handleNext_well hstt htook) trivial (guardOpen_eq_ok hg)
          (Nat.lt_succ_self _)
      obtain ⟨ans, m', hl, ha⟩ := hl
      exact ⟨ans, m', hl, ha.moves_nil⟩

section

variable (id : LocalStreamId) (m : Multiplexed)

def Drained : Prop := ∀ state, m.substreams.get? id = some state → state.recvBuf = []

/-- Nothing is buffered for the substream, and nothing more is expected. -/
def Ended : Prop := ∀ state, m.substreams.get? id = some state → state.recvBuf = [] ∧ state.recvOpen = false

/-- The data a read returns is what it delivers. -/
def readDeliveries : Option (List UInt8) → List (LocalStreamId × List UInt8)
  | some data => [(id, data)]
  | none => []

/-- A read that returns no data has come to the end. -/
def ReadEnd (answer : Option (List UInt8)) (m : Multiplexed) : Prop := answer = none → Ended id m

end

section

variable (hdra : Drained id m)
include hdra

theorem Quiet.drained (hq : Quiet m m') : Drained id m' := by
  intro state hs
  exact hdra state ((hq.lookup id).symm.trans hs)

theorem Took.drained (htook : Took m frame m') : Drained id m' := by
  intro state hs
  exact hdra state ((htook.lookup id).symm.trans hs)

theorem Drained.after {after : SubstreamState → Option SubstreamState}
    (hg : ∀ other, m'.substreams.get? other =
      if other = id' then (m.substreams.get? id').bind after else m.substreams.get? other)
    (ha : ∀ {state st'}, after state = some st' → st'.recvBuf = state.recvBuf ∧ st'.recvOpen = false) :
    Drained id m' ∧ (id = id' → Ended id m') := by
  have he : id = id' → Ended id m' := by
    rintro rfl state hs
    rw [hg, if_pos rfl, Option.bind_eq_some_iff] at hs
    obtain ⟨st', hs', hen⟩ := hs
    obtain ⟨hb, ho⟩ := ha hen
    exact ⟨hb.trans (hdra st' hs'), ho⟩
  refine ⟨fun state hs => ?_, he⟩
  by_cases heq : id = id'
  · exact (he heq state hs).1
  · rw [hg, if_neg heq] at hs
    exact hdra state hs

theorem OpenCase.drained (ho : OpenCase m id' (.ok result, m')) : Drained id m' := by
  cases ho with
  | refused hq => exact hq.drained hdra
  | accepted =>
    intro state hs
    change (m.setSubstream id' _).substreams.get? id = _ at hs
    rw [get?_setSubstream] at hs
    split_ifs at hs
    · cases hs
      rfl
    · exact hdra state hs

theorem ended_of_not_canRead (hr : ¬ m.canRead id) : Ended id m := by
  intro state hs
  refine ⟨hdra state hs, Bool.eq_false_iff.2 fun ho => hr ?_⟩
  rw [canRead, Option.any_eq_true]
  exact ⟨state, hs, ho⟩

/-- Nothing is buffered for the substream while the loop goes on, so data that arrives for it is next in
order. -/
theorem handleRead_well (hstt : m.status = .opened) (hr : m.canRead id) (htook : Took m frame m₁) :
    HandledWell (Drained id) (readDeliveries id) (ReadEnd id) m (handleRead id frame.frame m₁) := by
  have hd₁ := htook.drained hdra
  cases hf : frame.frame with
  | opened streamId =>
    have ho := openCase_onOpen m₁ streamId
    rw [handleRead]
    generalize m₁.onOpen streamId = outcome at ho ⊢
    obtain ⟨result, m'⟩ := outcome
    match result, ho with
    | .error e, ho => exact (Move.opened htook hf ho).moves
    | .ok (some new), ho =>
      have hq : Quiet m' { m' with openBuffer := m'.openBuffer ++ [new] } := quiet_queues m' _ _ _
      exact handleOpen_well hstt htook hf ho hq (hq.drained (ho.drained hd₁))
    | .ok none, ho => exact handleOpen_well hstt htook hf ho (.refl m') (ho.drained hd₁)
  | data =>
    rw [handleRead]
    split_ifs with heq
    · obtain ⟨state, hs, ho⟩ := (Option.any_eq_true _ _).1 hr
      subst heq
      exact ⟨(Move.delivered htook hf hs ho (hdra state hs)).moves, nofun⟩
    · refine handleData_well hstt htook hf fun m' hb state hs => ?_
      rw [hb.get?_of_ne (Ne.symm heq)] at hs
      exact hd₁ state hs
  | close =>
    obtain ⟨hg, he⟩ := hd₁.after (get?_onClose m₁ _) (by rintro state _ ⟨⟩; simp)
    simp [handleRead]
    split_ifs with heq
    · exact ⟨(Move.closed htook hf).moves, fun _ => he heq⟩
    · exact handleEnd_well hstt htook (.closed htook hf) (onlySubstreams_onClose ..) hg
  | reset =>
    obtain ⟨hg, he⟩ := hd₁.after (get?_onReset m₁ _) SubstreamState.recvBuf_of_afterReset
    simp [handleRead]
    split_ifs with heq
    · exact ⟨(Move.reset htook hf).moves, fun _ => he heq⟩
    · exact handleEnd_well hstt htook (.reset htook hf) (onlySubstreams_onReset ..) hg

theorem readLoop_answers (hstt : m.status = .opened) :
    ∃ ans m', m.readLoop id = .ok (ans, m') ∧ Answers (readDeliveries id) (ReadEnd id) m ans m' := by
  have hq : ∀ {m m' : Multiplexed}, Quiet m m' → Drained id m → Drained id m' :=
    fun hq hdra => hq.drained hdra
  apply frameLoop_answers hq _ _ _ hdra hstt (Nat.lt_succ_self _)
  · intro m m' hq
    have hcaR : m'.canRead id = m.canRead id := by rw [canRead, canRead, hq.lookup]
    rw [hcaR]
  · intro m _ hg hs
    split_ifs at hs with hr
    cases hs
    exact ⟨rfl, fun _ => ended_of_not_canRead hg hr⟩
  · intro m _ _ hg ho hs htook
    split_ifs at hs with hr
    exact handleRead_well hg ho hr htook

end

section

variable (m : Multiplexed) (id : LocalStreamId)

theorem pollReadStream_answers :
    ∃ ans m', m.pollReadStream id = .ok (ans, m') ∧ Answers (readDeliveries id) (ReadEnd id) m ans m' := by
  unfold pollReadStream
  split
  next => exact ⟨_, _, rfl, .nil m⟩
  next hg =>
    have hstt := guardOpen_eq_ok hg
    split
    next hn => exact readLoop_answers (fun state hs => nomatch hn.symm.trans hs) hstt
    next state hs =>
      split
      next he =>
        refine readLoop_answers (fun st' hs' => ?_) hstt
        cases hs.symm.trans hs'
        exact he
      next hb => exact ⟨_, _, rfl, (Move.read hs hb).moves, nofun⟩

theorem moves_pollOpenStream :
    m.pollOpenStream = .error .idOverflow ∨ ∃ ans m', m.pollOpenStream = .ok (ans, m') ∧ Moves m [] m' := by
  unfold pollOpenStream
  split
  next => exact .inr ⟨_, _, rfl, .nil m⟩
  next =>
    split_ifs with hr
    · exact .inr ⟨_, _, rfl, .nil m⟩
    have hs := attempt_pollSendFrame m (.opened m.nextOutboundStreamId)
    simp only
    generalize m.pollSendFrame (.opened m.nextOutboundStreamId) = result at hs ⊢
    cases hs with
    | pending h => exact .inr ⟨_, _, rfl, h.moves⟩
    | failed e h hc => exact .inr ⟨_, _, rfl, (Move.fail h (.inr hc)).moves⟩
    | @ok _ m' h =>
      cases hn : m.nextOutboundStreamId.next with
      | none => exact .inl rfl
      | some =>
        rw [← h.nextId] at hn ⊢
        refine .inr ⟨_, _, rfl, h.moves.trans (Move.openOut hn ?_ _).moves⟩
        rw [h.config, h.substreams]
        exact Nat.lt_of_not_le hr

theorem moves_pollFlush : Moves m [] m.pollFlush.2 := by
  cases hstt : m.status with
  | opened => exact (attempt_pollFlush hstt).moves
  | closed | err e =>
    rw [pollFlush, hstt]
    exact .nil m

theorem moves_pollFlushStream : Moves m [] m.pollFlushStream.2 := by
  unfold pollFlushStream
  split
  next => exact .nil m
  next hg =>
    refine ((attempt_pollFlush (guardOpen_eq_ok hg)).readyOk fun _ m' _ => ?_).moves
    exact .ok () (.refl m')

theorem moves_pollWriteStream (buf : List UInt8) : Moves m [] (m.pollWriteStream id buf).2 := by
  have hw : ∀ frame frameLen,
      Moves m [] (readyOk (m.pollSendFrame frame) fun _ m => (.ready (.ok (frameLen : Nat)), m)).2 := by
    intro frame frameLen
    exact ((attempt_pollSendFrame m frame).readyOk fun _ m' _ => .ok frameLen (.refl m')).moves
  unfold pollWriteStream
  split
  next => exact .nil m
  next =>
    split
    next => exact .nil m
    next => exact .nil m
    next => exact .nil m
    next => exact .nil m
    next => exact hw _ _
    next => exact hw _ _

end

theorem quiet_putBack (hs : m.substreams.get? id = some state) (hq : Quiet (m.removeSubstream id) m') :
    Quiet m (m'.setSubstream id state) where
  __ := hq
  substreams := by
    apply OrdMap.ext_get?
    intro _
    rw [get?_setSubstream, hq.lookup, get?_removeSubstream]
    split_ifs with heq
    · rw [heq, hs]
    · rfl

theorem moves_closeWith {closed : SubstreamState} (hs : m.substreams.get? id = some state)
    (hc : ∀ m', m'.substreams.get? id = some state → Move m' none ((m'.setSubstream id closed).note (.closed id))) :
    Moves m [] (m.closeWith id state closed).2 := by
  have hse := attempt_pollSendFrame (m.removeSubstream id) (.close id)
  rw [closeWith]
  generalize (m.removeSubstream id).pollSendFrame (.close id) = result at hse ⊢
  cases hse with
  | pending h => exact (quiet_putBack hs h).moves
  | @failed e m' h hca =>
    have hf : Failed m m' := { h with }
    exact (Move.fail hf (.inr hca)).moves
  | @ok _ m' h =>
    have hcl := hc (m'.setSubstream id state) (get?_setSubstream_self ..)
    have hsa : ((m'.setSubstream id state).setSubstream id closed).substreams =
        (m'.setSubstream id closed).substreams := by
      apply OrdMap.ext_get?
      intro _
      simp [get?_setSubstream]
      split_ifs <;> rfl
    have hq : Quiet (((m'.setSubstream id state).setSubstream id closed).note (.closed id))
        ((m'.setSubstream id closed).note (.closed id)) :=
      ⟨rfl, rfl, hsa.symm, rfl, rfl, rfl, rfl, fun h => h⟩
    exact ((quiet_putBack hs h).moves.trans hcl.moves).trans hq.moves

theorem moves_pollCloseStream (m : Multiplexed) (id : LocalStreamId) : Moves m [] (m.pollCloseStream id).2 := by
  unfold pollCloseStream
  split
  next => exact .nil m
  next =>
    split
    next => exact .nil m
    next hs => exact (quiet_putBack hs (.refl _)).moves
    next hs => exact (quiet_putBack hs (.refl _)).moves
    next hs => exact (quiet_putBack hs (.refl _)).moves
    next hs => exact moves_closeWith hs fun _ => .sendClose
    next hs => exact moves_closeWith hs fun _ => .sendCloseLast

inductive DropCase (m : Multiplexed) (id : LocalStreamId) : Multiplexed → Prop where
  | ignored : DropCase m id m
  | dropped {m' : Multiplexed} (hquiet : Quiet ((m.removeSubstream id).note (.dropped id)) m') : DropCase m id m'
  | failed {m' : Multiplexed} (hfailed : Failed ((m.removeSubstream id).note (.dropped id)) m')
      (hfull : m.config.maxSubstreams + extraPendingFrames ≤ m.pendingFrames.length) : DropCase m id m'

theorem dropCase_dropStream (m : Multiplexed) (id : LocalStreamId) : DropCase m id (m.dropStream id) := by
  have hf : ∀ frame, DropCase m id (((m.removeSubstream id).note (.dropped id)).pendFinal frame) := by
    intro frame
    rw [pendFinal, checkMaxPendingFrames]
    split_ifs with hfu
    · exact .failed (failed_onError _ _) hfu
    · exact .dropped (quiet_pendingFrames _ _)
  unfold dropStream
  split
  next => exact .ignored
  next => exact .ignored
  next =>
    split
    next => exact .ignored
    next state hs =>
      cases state with
      | opened | recvClosed => exact hf _
      | sendClosed | closed | reset => exact .dropped (.refl _)

inductive CloseCase (m : Multiplexed) : Multiplexed → Prop where
  | ignored : CloseCase m m
  | finished {m' : Multiplexed} (hstatus : m'.status ≠ .opened) (hsubstreams : m'.substreams = .empty)
      (hblocking : m'.blockingStream = m.blockingStream) (hnextId : m'.nextOutboundStreamId = m.nextOutboundStreamId)
      (hhistory : m'.history = m.history) : CloseCase m m'

theorem closeCase_pollClose (m : Multiplexed) : CloseCase m m.pollClose.2 := by
  unfold pollClose
  split
  next => exact .ignored
  next => exact .ignored
  next =>
    split
    next => exact .ignored
    next => exact .finished nofun rfl rfl rfl rfl
    next => exact .finished nofun rfl rfl rfl rfl

end Multiplexed

def MplexOutput.deliveries : MplexOutput → List (LocalStreamId × List UInt8)
  | .read id (.ready (.ok (some data))) => [(id, data)]
  | _ => []

/-- The answer of a read at the end of the substream. -/
def MplexOutput.endOf (id : LocalStreamId) : MplexOutput := .read id (.ready (.ok Option.none))

namespace Multiplexed

inductive ActCase (m : Multiplexed) : MplexCall → MplexOutput → Multiplexed → Prop where
  | receive (item : Inbound) :
      ActCase m (.receive item) .none { m with io := { m.io with inbound := m.io.inbound ++ [item] } }
  | drop {id : LocalStreamId} {m' : Multiplexed} (hdrop : DropCase m id m') : ActCase m (.dropStream id) .none m'
  | close {answer : Poll Unit} {m' : Multiplexed} (hclose : CloseCase m m') : ActCase m .pollClose (.done answer) m'
  | moves {call : MplexCall} {output : MplexOutput} {m' : Multiplexed} (hcall : ∀ item, call ≠ .receive item)
      (hmoves : Moves m output.deliveries m') (hend : ∀ id, output = .endOf id → Ended id m') :
      ActCase m call output m'

variable {m m' : Multiplexed} {output : MplexOutput}

theorem Moves.actCase {call : MplexCall} (hm : Moves m [] m')
    (hc : ∀ item, call ≠ .receive item) (hr : ∀ id ans, output ≠ .read id ans) :
    ActCase m call output m' := by
  have hn : output.deliveries = [] := by
    unfold MplexOutput.deliveries
    split
    next => exact absurd rfl (hr _ _)
    next => rfl
  exact .moves hc (hn ▸ hm) fun id he => absurd he (hr _ _)

theorem Answers.actCase {id : LocalStreamId} {ans : Poll (Option (List UInt8))}
    (ha : Answers (readDeliveries id) (ReadEnd id) m ans m') :
    ActCase m (.pollReadStream id) (.read id ans) m' := by
  match ans, ha with
  | .ready (.ok (some data)), ha => exact .moves nofun ha.1 fun _ he => nomatch he
  | .ready (.ok none), ha =>
    refine .moves nofun ha.1 fun id' he => ?_
    cases he
    exact ha.2 rfl
  | .ready (.error e), ha | .pending, ha => exact .moves nofun ha fun _ he => nomatch he

theorem actCase_act (m : Multiplexed) (call : MplexCall) : m.act call = .error .idOverflow ∨
      ∃ output m', m.act call = .ok (output, m') ∧ ActCase m call output m' := by
  cases call with
  | receive item => exact .inr ⟨_, _, rfl, .receive item⟩
  | dropStream id => exact .inr ⟨_, _, rfl, .drop (dropCase_dropStream m id)⟩
  | pollClose => exact .inr ⟨_, _, rfl, .close (closeCase_pollClose m)⟩
  | pollNextStream =>
    obtain ⟨ans, m', hn, hm⟩ := moves_pollNextStream m
    exact .inr ⟨.stream ans, m', by rw [act, hn]; rfl, hm.actCase nofun nofun⟩
  | pollOpenStream =>
    rcases moves_pollOpenStream m with hf | ⟨ans, m', ho, hm⟩
    · exact .inl (by rw [act, hf]; rfl)
    · exact .inr ⟨.stream ans, m', by rw [act, ho]; rfl, hm.actCase nofun nofun⟩
  | pollReadStream id =>
    obtain ⟨ans, m', hr, ha⟩ := pollReadStream_answers m id
    exact .inr ⟨.read id ans, m', by rw [act, hr]; rfl, ha.actCase⟩
  | pollWriteStream id buf => exact .inr ⟨_, _, rfl, (moves_pollWriteStream m id buf).actCase nofun nofun⟩
  | pollFlushStream => exact .inr ⟨_, _, rfl, (moves_pollFlushStream m).actCase nofun nofun⟩
  | pollCloseStream id => exact .inr ⟨_, _, rfl, (moves_pollCloseStream m id).actCase nofun nofun⟩
  | pollFlush => exact .inr ⟨_, _, rfl, (moves_pollFlush m).actCase nofun nofun⟩

theorem actCase_exec {inp : MplexInput}
    (he : m.exec inp = .ok (output, m')) : ActCase (m.withAnswers inp) inp.call output m' := by
  rw [exec] at he
  rcases actCase_act (m.withAnswers inp) inp.call with hf | ⟨_, _, ha, hc⟩
  · cases hf.symm.trans he
  · cases ha.symm.trans he
    exact hc

end Multiplexed
end RustLibp2p.Mplex
