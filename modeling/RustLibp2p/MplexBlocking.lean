import RustLibp2p.MplexCalls
import RustLibp2p.Transition

/-! Numbers of outbound substreams. An outbound substream never takes the place of another one. -/

namespace RustLibp2p.Mplex
open Option

variable {out : MplexOutput}

namespace Multiplexed

/-- The next outbound substream gets a number no outbound substream has. -/
structure Allotted (m : Multiplexed) : Prop where
  role : m.nextOutboundStreamId.role = .dialer
  below : ∀ id, (m.substreams.get? id).isSome → id.role = .dialer → id.num < m.nextOutboundStreamId.num

variable {m m' : Multiplexed}

theorem Allotted.fresh (hall : Allotted m) : m.substreams.get? m.nextOutboundStreamId = none := by
  cases hs : m.substreams.get? m.nextOutboundStreamId with
  | none => rfl
  | some =>
    have hk : (m.substreams.get? m.nextOutboundStreamId).isSome := by rw [hs, isSome_some]
    exact absurd (hall.below _ hk hall.role) (lt_irrefl _)

theorem Allotted.of_known (hall : Allotted m) (hneI : m'.nextOutboundStreamId = m.nextOutboundStreamId)
    (hk : ∀ id, (m'.substreams.get? id).isSome → (m.substreams.get? id).isSome ∨ id.role = .listener) :
    Allotted m' := by
  refine ⟨hneI ▸ hall.role, fun id hid hr => ?_⟩
  rw [hneI]
  rcases hk id hid with ho | hl
  · exact hall.below id ho hr
  · exact absurd (hl.symm.trans hr) nofun

theorem known_setSubstream {id id' : LocalStreamId} {st : SubstreamState}
    (hk : (m.substreams.get? id).isSome ∨ id.role = .listener)
    (hid : ((m.setSubstream id st).substreams.get? id').isSome) :
    (m.substreams.get? id').isSome ∨ id'.role = .listener := by
  rw [get?_setSubstream] at hid
  split_ifs at hid with heq
  · exact heq ▸ hk
  · exact .inl hid

theorem Quiet.allotted (hq : Quiet m m') (hall : Allotted m) : Allotted m' :=
  hall.of_known hq.nextId fun id hid => .inl (hq.lookup id ▸ hid)

theorem Failed.allotted (hf : Failed m m') (hall : Allotted m) : Allotted m' := by
  refine hall.of_known hf.nextId fun id hid => ?_
  rw [hf.lookup] at hid
  cases hid

theorem Took.allotted {frame : RemoteFrame} (ht : Took m frame m') (hall : Allotted m) : Allotted m' :=
  hall.of_known ht.nextId fun id hid => .inl (ht.lookup id ▸ hid)

theorem allotted_move {delivery : Option (LocalStreamId × List UInt8)}
    (hall : Allotted m) (hm : Move m delivery m') : Allotted m' := by
  cases hm with
  | quiet hq => exact hq.allotted hall
  | fail hf => exact hf.allotted hall
  | @opened m₁ _ frame id _ ht hfr ho =>
    have hl : id.intoLocal.role = .listener := by
      have hd := frame.opensAsDialer
      rw [hfr, Frame.opensAsDialer, decide_eq_true_eq] at hd
      rw [RemoteStreamId.intoLocal, hd]
      rfl
    cases ho with
    | failed _ hf => exact hf.allotted (ht.allotted hall)
    | refused hq => exact hq.allotted (ht.allotted hall)
    | accepted => exact (ht.allotted hall).of_known rfl fun _ => known_setSubstream (.inr hl)
  | buffered ht hfr hb =>
    have hta := ht.allotted hall
    cases hb with
    | failed _ hf => exact hf.allotted hta
    | ignored => exact hta
    | kept hs | blocked hs =>
      exact hta.of_known rfl fun _ => known_setSubstream (.inl (isSome_of_eq_some hs))
    | overflowed hs _ hq =>
      refine hta.of_known hq.nextId fun id' hid => ?_
      exact known_setSubstream (.inl (isSome_of_eq_some hs)) (hq.lookup id' ▸ hid)
  | delivered ht => exact ht.allotted hall
  | @closed m₁ _ id ht =>
    refine (ht.allotted hall).of_known (onlySubstreams_onClose m₁ _).nextId fun id' hid => ?_
    rw [get?_onClose] at hid
    split_ifs at hid with heq
    · exact .inl (heq ▸ isSome_of_isSome_bind hid)
    · exact .inl hid
  | @reset m₁ _ id ht =>
    refine (ht.allotted hall).of_known (onlySubstreams_onReset m₁ _).nextId fun id' hid => ?_
    rw [get?_onReset] at hid
    split_ifs at hid with heq
    · exact .inl (heq ▸ isSome_of_isSome_bind hid)
    · exact .inl hid
  | read hs | sendClose hs | sendCloseLast hs =>
    exact hall.of_known rfl fun _ => known_setSubstream (.inl (isSome_of_eq_some hs))
  | @openOut next hn =>
    obtain ⟨hbo, rfl⟩ : _ ∧ _ = next := by rwa [LocalStreamId.next, ite_none_right_eq_some, some_inj] at hn
    refine ⟨hall.role, fun id hid hr => ?_⟩
    rw [get?_setSubstream] at hid
    split_ifs at hid with heq
    · exact heq ▸ Nat.lt_succ_self _
    · exact (hall.below id hid hr).trans (Nat.lt_succ_self _)

theorem allotted_exec {inp : MplexInput} (hall : Allotted m)
    (he : m.exec inp = .ok (out, m')) : Allotted m' := by
  have hs : Allotted (m.withAnswers inp) := { hall with }
  have hc := actCase_exec he
  generalize inp.call = call at hc
  cases hc with
  | receive => exact { hs with }
  | @drop id _ hd =>
    have hr : Allotted (((m.withAnswers inp).removeSubstream id).note (.dropped id)) := by
      refine hs.of_known rfl fun id' hid => ?_
      change (((m.withAnswers inp).removeSubstream id).substreams.get? id').isSome at hid
      rw [get?_removeSubstream] at hid
      split_ifs at hid with heq
      · cases hid
      · exact .inl hid
    cases hd with
    | ignored => exact hs
    | dropped hq => exact hq.allotted hr
    | failed hf => exact hf.allotted hr
  | close hcl =>
    cases hcl with
    | ignored => exact hs
    | finished _ hsub _ hneI =>
      refine hs.of_known hneI fun id hid => ?_
      rw [hsub, OrdMap.get?_empty] at hid
      cases hid
  | moves _ hm => exact hm.invariant (fun _ m => Allotted m) allotted_move [] hs

theorem allotted_new (config : Config) : Allotted (new config) := ⟨rfl, nofun⟩

end Multiplexed

/-! A substream with a full buffer blocks the connection: no frame is read until its buffer is read. The
marker names a substream that is there and has something buffered, so the read of its owner unblocks the
connection. -/

open Transition

namespace Multiplexed

variable {m m' : Multiplexed} {input : MplexInput} {delivery : Option (LocalStreamId × List UInt8)}
  {id : LocalStreamId}

theorem failing_of_move (hm : Move m delivery m') (hf : m'.io.Failing) : m.io.Failing := by
  cases hm with
  | quiet hq => exact hq.failing hf
  | fail hfa => exact hfa.failing hf
  | opened ht _ ho =>
    apply ht.failing
    cases ho with
    | failed _ hfa => exact hfa.failing hf
    | refused hq => exact hq.failing hf
    | accepted => exact hf
  | buffered ht _ hb =>
    apply ht.failing
    cases hb with
    | failed _ hfa => exact hfa.failing hf
    | overflowed _ _ hq => exact hq.failing hf
    | ignored | kept | blocked => exact hf
  | delivered ht => exact ht.failing hf
  | closed ht => exact ht.failing ((onlySubstreams_onClose _ _).io ▸ hf)
  | reset ht => exact ht.failing ((onlySubstreams_onReset _ _).io ▸ hf)
  | read | openOut | sendClose | sendCloseLast => exact hf

/-- If a substream blocks the connection, it is there and has something buffered. -/
def Unblockable (m : Multiplexed) : Prop :=
  ∀ id, m.blockingStream = some id →
    m.status = .opened ∧ ∃ state, m.substreams.get? id = some state ∧ state.recvBuf ≠ []

theorem unblockable_of_none (hn : m.blockingStream = none) : Unblockable m :=
  fun _ hb => nomatch hn.symm.trans hb

theorem Unblockable.of_kept (hm : Unblockable m) (hs : m'.status = m.status)
    (hk : ∀ id, m'.blockingStream = some id → m.blockingStream = some id ∧
      ∀ st, m.substreams.get? id = some st →
        ∃ st', m'.substreams.get? id = some st' ∧ st'.recvBuf = st.recvBuf) : Unblockable m' := by
  intro id hb
  obtain ⟨ho, hsa⟩ := hk id hb
  obtain ⟨hop, st, hst, hbu⟩ := hm id ho
  obtain ⟨st', hst', heq⟩ := hsa st hst
  exact ⟨hs.trans hop, st', hst', heq ▸ hbu⟩

theorem Quiet.unblockable (hq : Quiet m m') (hm : Unblockable m) : Unblockable m' :=
  hm.of_kept hq.status fun id hb =>
    ⟨hq.blocking ▸ hb, fun st hs => ⟨st, (hq.lookup id).trans hs, rfl⟩⟩

theorem kept_setSubstream {old : SubstreamState}
    (ho : m.substreams.get? id = some old) (new : SubstreamState) (hb : new.recvBuf = old.recvBuf)
    (id' : LocalStreamId) (st : SubstreamState) (hs : m.substreams.get? id' = some st) :
    ∃ st', (m.setSubstream id new).substreams.get? id' = some st' ∧ st'.recvBuf = st.recvBuf := by
  rw [get?_setSubstream]
  split_ifs with heq
  · subst heq
    cases ho.symm.trans hs
    exact ⟨new, rfl, hb⟩
  · exact ⟨st, hs, rfl⟩

theorem unblockable_move (hall : Allotted m)
    (hs : ¬ m.io.Failing) (hm : Unblockable m) (hmo : Move m delivery m') : Unblockable m' := by
  cases hmo with
  | quiet hq => exact hq.unblockable hm
  | fail hf hc =>
    rcases hc with hn | hfa
    · exact unblockable_of_none (hf.blocking.trans hn)
    · exact absurd hfa hs
  | opened ht _ ho =>
    -- A frame is taken only when nothing blocks, and only a full buffer can block.
    apply unblockable_of_none
    cases ho with
    | failed _ hf => exact hf.blocking.trans ht.blocking
    | refused hq => exact hq.blocking.trans ht.blocking
    | accepted => exact ht.blocking
  | buffered ht _ hb =>
    cases hb with
    | failed _ hf => exact unblockable_of_none (hf.blocking.trans ht.blocking)
    | overflowed _ _ hq => exact unblockable_of_none (hq.blocking.trans ht.blocking)
    | ignored | kept => exact unblockable_of_none ht.blocking
    | blocked =>
      intro id hbl
      cases hbl
      refine ⟨ht.status.trans ht.opened, _, get?_setSubstream_self .., ?_⟩
      rw [SubstreamState.recvBuf_withBuf]
      exact List.append_ne_nil_of_right_ne_nil _ (List.cons_ne_nil _ _)
  | delivered ht => exact unblockable_of_none ht.blocking
  | closed ht => exact unblockable_of_none ((onlySubstreams_onClose _ _).blocking.trans ht.blocking)
  | reset ht => exact unblockable_of_none ((onlySubstreams_onReset _ _).blocking.trans ht.blocking)
  | @read id =>
    refine hm.of_kept rfl fun id' hbl => ?_
    change (if m.blockingStream = some id then none else m.blockingStream) = some id' at hbl
    split_ifs at hbl with hid
    have hne : id' ≠ id := fun heq => hid (heq ▸ hbl)
    refine ⟨hbl, fun st' hst' => ⟨st', ?_, rfl⟩⟩
    exact (get?_setSubstream_of_ne _ hne _).trans hst'
  | openOut =>
    refine hm.of_kept rfl fun id hbl => ⟨hbl, fun st hst => ⟨st, ?_, rfl⟩⟩
    have hne : id ≠ m.nextOutboundStreamId := by
      rintro rfl
      cases hall.fresh.symm.trans hst
    exact (get?_setSubstream_of_ne _ hne _).trans hst
  | @sendClose _ buf hst =>
    exact hm.of_kept rfl fun id hbl => ⟨hbl, kept_setSubstream hst (.sendClosed buf) rfl id⟩
  | @sendCloseLast _ buf hst =>
    exact hm.of_kept rfl fun id hbl => ⟨hbl, kept_setSubstream hst (.closed buf) rfl id⟩

/-- Whether a call gives up substreams in a way that leaves a blocking substream marked: it drops that very
substream, or the connection is closed, or fails because the last frame of a dropped substream finds too many
frames pending. -/
def givesUp (m : Multiplexed) (blocking : LocalStreamId) : MplexCall → Bool
  | .dropStream id => id = blocking || m.config.maxSubstreams + extraPendingFrames ≤ m.pendingFrames.length
  | .pollClose => true
  | _ => false

/-- The underlying stream takes what it is given, and nothing is given up while a substream blocks. -/
def KeepsBlocking (m : Multiplexed) (input : MplexInput) : Prop :=
  (∀ answer ∈ input.sends ++ input.flushes, answer = .done) ∧ ∀ id ∈ m.blockingStream, m.givesUp id input.call = false

instance (m : Multiplexed) (input : MplexInput) : Decidable (m.KeepsBlocking input) :=
  inferInstanceAs (Decidable (_ ∧ _))

theorem not_givesUp_dropStream {blocking : LocalStreamId} (hk : m.givesUp blocking (.dropStream id) = false) :
    id ≠ blocking ∧ m.pendingFrames.length < m.config.maxSubstreams + extraPendingFrames := by
  rw [givesUp, Bool.or_eq_false_iff, decide_eq_false_iff_not, decide_eq_false_iff_not] at hk
  exact ⟨hk.1, Nat.lt_of_not_le hk.2⟩

theorem KeepsBlocking.not_failing (hk : m.KeepsBlocking input) : ¬ (m.withAnswers input).io.Failing := by
  rintro ⟨_, hs | hf⟩
  · cases hk.1 _ (List.mem_append_left _ hs)
  · cases hk.1 _ (List.mem_append_right _ hf)

theorem unblockable_exec (hall : Allotted m) (hm : Unblockable m)
    (hk : m.KeepsBlocking input) (he : m.exec input = .ok (out, m')) : Unblockable m' := by
  have ha' : Allotted (m.withAnswers input) := { hall with }
  have hs : Unblockable (m.withAnswers input) := hm
  have hsi := hk.not_failing
  have hb : ∀ id, (m.withAnswers input).blockingStream = some id →
      (m.withAnswers input).givesUp id input.call = false := hk.2
  have hc := actCase_exec he
  generalize input.call = call at hb hc
  generalize m.withAnswers input = m₁ at ha' hs hsi hb hc
  cases hc with
  | receive => exact hs
  | @drop id _ hd =>
    cases hd with
    | ignored => exact hs
    | dropped hq =>
      refine hq.unblockable (hs.of_kept rfl fun id' hbl => ⟨hbl, fun st hst => ?_⟩)
      have hne : id' ≠ id := fun heq => (not_givesUp_dropStream (hb id' hbl)).1 heq.symm
      exact ⟨st, ((get?_removeSubstream ..).trans (if_neg hne)).trans hst, rfl⟩
    | failed hf hfu =>
      cases hbl : m₁.blockingStream with
      | none => exact unblockable_of_none (hf.blocking.trans hbl)
      | some blocking => exact absurd hfu (Nat.not_le_of_lt (not_givesUp_dropStream (hb blocking hbl)).2)
  | close hcl =>
    cases hcl with
    | ignored => exact hs
    | finished _ _ hsa =>
      cases hbl : m₁.blockingStream with
      | none => exact unblockable_of_none (hsa.trans hbl)
      | some blocking => exact absurd (hb blocking hbl) nofun
  | moves _ hmo =>
    have hi := hmo.invariant (fun _ m => Allotted m ∧ ¬ m.io.Failing ∧ Unblockable m)
      (fun h hmv => ⟨allotted_move h.1 hmv, fun hfa => h.2.1 (failing_of_move hmv hfa),
        unblockable_move h.1 h.2.1 h.2.2 hmv⟩) [] ⟨ha', hsi, hs⟩
    exact hi.2.2

/-- The owner of the substream that blocks the connection reads what is buffered, and unblocks it. -/
theorem Unblockable.exec_read (hm : Unblockable m)
    (hb : m.blockingStream = some id) (hc : input.call = .pollReadStream id) :
    ∃ data m', m.exec input = .ok (.read id (.ready (.ok (some data))), m') ∧ m'.status = .opened ∧
      m'.blockingStream = none := by
  obtain ⟨hs, state, hst, hbu⟩ := hm id hb
  obtain ⟨data, _, hbu⟩ := List.exists_cons_of_ne_nil hbu
  have ho : (m.withAnswers input).status = .opened := hs
  have hf : (m.withAnswers input).substreams.get? id = some state := hst
  rw [exec, hc, act]
  simp [pollReadStream, guardOpen, ho, hf, hbu]
  exact ⟨data, _, rfl, rfl, if_pos hb⟩

/-- Along every run whose calls give nothing up while a substream blocks the connection, that substream is
there with something buffered, and a read of it unblocks the connection. -/
theorem run_blocking_unblocked (config : Config) (inputs : List MplexInput) {outputs : List MplexOutput}
    {s : Multiplexed} (hkeeps : Along exec KeepsBlocking (new config) inputs)
    (hrun : run exec (new config) inputs = .ok (outputs, s)) {id : LocalStreamId}
    (hblocking : s.blockingStream = some id) : (∃ state, s.substreams.get? id = some state ∧ state.recvBuf ≠ []) ∧
      ∀ input, input.call = .pollReadStream id →
        ∃ data s', s.exec input = .ok (.read id (.ready (.ok (some data))), s') ∧ s'.status = .opened ∧
          s'.blockingStream = none := by
  have hst : ∀ m input out m', Allotted m ∧ Unblockable m → m.KeepsBlocking input →
      m.exec input = .ok (out, m') → Allotted m' ∧ Unblockable m' := by
    intro m input out m' hm hkeeps he
    exact ⟨allotted_exec hm.1 he, unblockable_exec hm.1 hm.2 hkeeps he⟩
  have hsa : Allotted (new config) ∧ Unblockable (new config) := ⟨allotted_new config, unblockable_of_none rfl⟩
  obtain ⟨-, hs⟩ := run_invariant hst hsa hkeeps hrun
  exact ⟨(hs id hblocking).2, fun input hc => hs.exec_read hblocking hc⟩

/-- Two substreams are opened by the remote, and the buffer of the first, which holds one frame, gets two. -/
def blockedInputs : List MplexInput :=
  [.remoteOpen 0, { call := .pollNextStream }, .remoteOpen 1, { call := .pollNextStream }, .remoteData 0 [1],
    { call := .pollReadStream ⟨1, .listener⟩ }, .remoteData 0 [2], { call := .pollReadStream ⟨1, .listener⟩ }]

def smallBuffers : Config := { Config.default with maxBufferLen := 1 }

theorem run_blocking_unblocked_blocked : ∃ outputs s, run exec (new smallBuffers) blockedInputs = .ok (outputs, s) ∧
    s.blockingStream = some ⟨0, .listener⟩ ∧
    (∃ state, s.substreams.get? ⟨0, .listener⟩ = some state ∧ state.recvBuf ≠ []) ∧
      ∀ input, input.call = .pollReadStream ⟨0, .listener⟩ →
        ∃ data s', s.exec input = .ok (.read ⟨0, .listener⟩ (.ready (.ok (some data))), s') ∧
          s'.status = .opened ∧ s'.blockingStream = none :=
  ⟨_, _, rfl, by decide +kernel,
    run_blocking_unblocked smallBuffers blockedInputs (by decide +kernel) rfl (by decide +kernel)⟩

/-- The blocking substream is dropped; data for the other one is then never read. -/
theorem blocked_after_dropStream : ∃ outputs s, run exec (new smallBuffers) (blockedInputs ++
        [{ call := .dropStream ⟨0, .listener⟩ }, .remoteData 1 [3], { call := .pollReadStream ⟨1, .listener⟩ }]) =
      .ok (outputs, s) ∧
      outputs.getLast? = some (.read ⟨1, .listener⟩ .pending) ∧ s.status = .opened ∧
      s.blockingStream = some ⟨0, .listener⟩ ∧ s.substreams.get? ⟨0, .listener⟩ = none :=
  ⟨_, _, rfl, by decide +kernel, by decide +kernel, by decide +kernel, by decide +kernel⟩

end Multiplexed
end RustLibp2p.Mplex
