import RustLibp2p.WebRtcDelivery

/-! The two halves of a stream over a WebRTC data channel. The user closes them in calls that may be
pending between the request, the sending and the flush of the flag, and the remote closes them with flags
that a read or a write takes from the channel. -/

namespace RustLibp2p.WebRtc

open Transition List State
open PollIo (Poll)

namespace State

/-- A local close has begun and is not completed. -/
def closing : State → Bool
  | closingRead _ _ => true
  | closingWrite _ _ => true
  | _ => false

def readHalfClosed : State → Bool
  | readClosed => true
  | bothClosed _ => true
  | closingWrite closed _ => closed
  | _ => false

def writeHalfClosed : State → Bool
  | writeClosed => true
  | bothClosed _ => true
  | closingRead closed _ => closed
  | _ => false

/-- The read half is closed, or it will be when the local close is completed. -/
def readShut (state : State) : Bool :=
  match state with
  | closingRead _ _ => true
  | state => state.readHalfClosed

def writeShut (state : State) : Bool :=
  match state with
  | closingWrite _ _ => true
  | state => state.writeHalfClosed

end State

/-- The half that the flag closes is shut. -/
def Flag.shuts : Flag → State → Bool
  | fin, state => state.readShut
  | stopSending, state => state.writeShut
  | reset, state => state.readShut && state.writeShut

namespace State

def Keeps (state after : State) : Prop := ∀ flag : Flag, flag.shuts state → flag.shuts after

theorem Keeps.refl (state : State) : state.Keeps state := fun _ hs => hs

variable {state : State}

theorem Keeps.trans {middle after : State} (hf : state.Keeps middle) (hs : middle.Keeps after) :
    state.Keeps after := fun flag hsh => hs flag (hf flag hsh)

theorem keeps_handleInboundFlag (state : State) (flag : Flag) (buffer : List UInt8) :
    state.Keeps (state.handleInboundFlag flag buffer).1 := by
  intro other hs
  cases state <;> cases flag <;> cases other <;> first | exact hs | rfl

theorem keeps_closeWriteBarrier (state : State) : state.Keeps state.closeWriteBarrier.2 := by
  intro flag hs
  cases state with
  | opened => cases flag <;> cases hs
  | readClosed => cases flag <;> rfl
  | writeClosed | closingWrite => exact hs
  | closingRead closed => cases closed <;> exact hs
  | bothClosed reset => cases reset <;> exact hs

theorem keeps_closeReadBarrier (state : State) : state.Keeps state.closeReadBarrier.2 := by
  intro flag hs
  cases state with
  | opened => cases flag <;> cases hs
  | readClosed | closingRead => exact hs
  | writeClosed => cases flag <;> rfl
  | closingWrite closed => cases closed <;> exact hs
  | bothClosed reset => cases reset <;> exact hs

theorem keeps_of_closing {transition : State → Option State} {after : State}
    (hc : transition ∈ [closeWriteMessageSent, closeReadMessageSent, onWriteClosed, onReadClosed])
    (ha : transition state = some after) : state.Keeps after := by
  intro flag hs
  simp only [mem_cons, not_mem_nil, or_false] at hc
  rcases hc with rfl | rfl | rfl | rfl
  all_goals
    cases state with
    | closingRead closed inner | closingWrite closed inner =>
      cases closed <;> cases inner <;> cases ha <;> cases flag <;> first | rfl | exact hs
    | _ => cases ha

/-- In the states in which a flag is taken from the channel it shuts its half, but for a `Fin` while the
write half is being closed. -/
theorem shuts_handleInboundFlag (ho : state.readBarrier = .ok () ∨ state = readClosed) {flag : Flag}
    (hh : flag = .fin → ∀ inner, state ≠ closingWrite false inner) (buffer : List UInt8) :
    flag.shuts (state.handleInboundFlag flag buffer).1 := by
  cases state with
  | closingRead => rcases ho with ho | ho <;> cases ho
  | closingWrite closed inner =>
    cases flag with
    | fin =>
      cases closed with
      | false => exact absurd rfl (hh rfl inner)
      | true => rfl
    | stopSending | reset => rfl
  | opened | readClosed | writeClosed | bothClosed => cases flag <;> rfl

theorem readHalfClosed_of_shut (hs : state.readShut) (hc : state.closing = false) : state.readHalfClosed := by
  cases state <;> first | exact hs | cases hc

theorem writeHalfClosed_of_shut (hs : state.writeShut) (hc : state.closing = false) :
    state.writeHalfClosed := by
  cases state <;> first | exact hs | cases hc

end State

def flagOf (item : Item) : Option Flag := (frameOf item).bind Frame.flag

namespace Stream

section

variable (stream : Stream)

def flagsTaken (call : Call) : List Flag :=
  (stream.io.incoming.take (stream.io.incoming.length - (stream.exec call).2.io.incoming.length)).filterMap flagOf

def observe (call : Call) : (Outcome × List Flag) × Stream :=
  (((stream.exec call).1, stream.flagsTaken call), (stream.exec call).2)

/-- The call does not read a `Fin` while the write half is being closed and the read half is open. -/
def hearsFin : Call → Bool
  | .pollRead _ =>
    match stream.state with
    | .closingWrite false _ =>
      stream.readBuffer ≠ [] || stream.io.incoming.head?.all fun item => flagOf item ≠ some .fin
    | _ => true
  | _ => true

/-- The items that are gone from the channel, with every flag among them heard. -/
def Took (items : List Item) (after : Stream) : Prop :=
  stream.state.Keeps after.state ∧
    ∃ took, items = took ++ after.io.incoming ∧ ∀ flag ∈ took.filterMap flagOf, flag.shuts after.state

end

variable {stream after : Stream} {items : List Item} {item : Item} {result : Poll (Except IoError Unit)}
  {sink : SinkAnswers}

theorem took_nothing (hk : stream.state.Keeps after.state) (hi : after.io.incoming = items) : stream.Took items after :=
  ⟨hk, [], hi.symm, nofun⟩

variable {error : IoError} {frame : Frame} {len : Nat} {finish : Stream → Option Stream} {call : Call}

theorem flagOf_error (hi : decodeItem item = .error error) : flagOf item = none := by
  simp [flagOf, frameOf, hi, Except.toOption]

theorem flagOf_ok (hi : decodeItem item = .ok frame) : flagOf item = frame.flag := by
  simp [flagOf, frameOf, hi, Except.toOption]

theorem took_error (hi : decodeItem item = .error error) :
    stream.Took (item :: items) (stream.withIncoming items) := by
  refine ⟨.refl _, [item], rfl, ?_⟩
  rw [filterMap_cons_none (flagOf_error hi)]
  exact forall_mem_nil _

theorem keeps_handleFlag (stream : Stream) (flag : Option Flag) : stream.state.Keeps
    (stream.handleFlag flag).state := by
  cases flag with
  | none => exact .refl _
  | some => exact keeps_handleInboundFlag _ _ _

theorem Took.cons_frame (hi : decodeItem item = .ok frame)
    (hs : ∀ flag, frame.flag = some flag → flag.shuts (stream.handleFlag frame.flag).state)
    (ht : (stream.handleFlag frame.flag).Took items after) : stream.Took (item :: items) after := by
  obtain ⟨hk, took, hit, hf⟩ := ht
  refine ⟨(stream.keeps_handleFlag _).trans hk, item :: took, by rw [hit, cons_append], ?_⟩
  intro flag hfl
  rw [filterMap_cons, flagOf_ok hi] at hfl
  cases hfr : frame.flag with
  | none =>
    rw [hfr] at hfl
    exact hf flag hfl
  | some =>
    rw [hfr] at hfl
    rcases mem_cons.1 hfl with rfl | hl
    · exact hk flag (hs flag hfr)
    · exact hf flag hl

theorem shuts_handleFlag (ho : stream.state.readBarrier = .ok () ∨ stream.state = .readClosed)
    {given : Option Flag} (hh : given = some .fin → ∀ inner, stream.state ≠ .closingWrite false inner) :
    ∀ flag, given = some flag → flag.shuts (stream.handleFlag given).state := by
  rintro _ rfl
  refine shuts_handleInboundFlag ho ?_ _
  rintro rfl
  exact hh rfl

theorem took_discardLoop (stream : Stream) (items : List Item) : stream.Took items (stream.discardLoop items).2 := by
  induction items generalizing stream with
  | nil => exact took_nothing (.refl _) rfl
  | cons item items ih =>
    rw [discardLoop]
    split_ifs with hr
    · have hs : stream.state = .readClosed := of_decide_eq_true hr
      split
      · next hi => exact took_error hi
      · next hi =>
        refine Took.cons_frame hi (shuts_handleFlag (.inr hs) ?_) (ih _)
        intro _ _ heq
        rw [hs] at heq
        cases heq
    · exact took_nothing (.refl _) rfl

theorem took_pollWrite (stream : Stream) (data : List UInt8) (sink : SinkAnswers) :
    stream.Took stream.io.incoming (stream.pollWrite data sink).2 := by
  have hd := stream.took_discardLoop stream.io.incoming
  rw [pollWrite]
  split
  · next hl => rwa [hl] at hd
  · next hl =>
    rw [hl] at hd
    repeat' split
    all_goals exact hd

theorem took_readReady {result : Except IoError (List UInt8)}
    (hr : stream.readReady len = some (result, after)) : stream.Took stream.io.incoming after := by
  unfold readReady at hr
  split at hr
  · cases hr
    exact took_nothing (.refl _) rfl
  · split_ifs at hr
    cases hr
    exact took_nothing (.refl _) rfl

theorem took_pollReadLoop_of_buffer (hb : stream.readBuffer ≠ []) (len : Nat) (items : List Item) :
    ∃ result after, stream.pollReadLoop len items = some (result, after) ∧ stream.Took items after := by
  cases hr : (stream.withIncoming items).readReady len with
  | none => exact absurd (readBarrier_of_readReady hr).2 hb
  | some given =>
    rw [pollReadLoop.eq_def, hr]
    exact ⟨_, _, rfl, took_readReady hr⟩

theorem took_pollRead (hh : stream.hearsFin (.pollRead len)) :
    ∃ result after, stream.pollRead len = some (result, after) ∧ stream.Took stream.io.incoming after := by
  have hs : stream.withIncoming stream.io.incoming = stream := rfl
  rw [pollRead, pollReadLoop.eq_def, hs]
  cases hr : stream.readReady len with
  | some => exact ⟨_, _, rfl, took_readReady hr⟩
  | none =>
    obtain ⟨hb, hbu⟩ := readBarrier_of_readReady hr
    cases hi : stream.io.incoming with
    | nil =>
      dsimp only
      split_ifs
      · exact ⟨_, _, rfl, took_nothing (keeps_handleFlag (stream.withIncoming []) (some .fin)) rfl⟩
      · exact ⟨_, _, rfl, took_nothing (.refl _) rfl⟩
    | cons item items =>
      dsimp only
      cases hit : decodeItem item with
      | error => exact ⟨_, _, rfl, took_error hit⟩
      | ok frame =>
        have hsh : ∀ flag, frame.flag = some flag → flag.shuts (stream.handleFlag frame.flag).state := by
          refine shuts_handleFlag (.inl hb) fun hf inner hst => ?_
          rw [hearsFin, hst, hi, hbu] at hh
          simp [flagOf_ok hit, hf] at hh
        dsimp only
        rw [if_neg (not_not.2 (handleFlag_readBuffer hbu frame.flag))]
        split
        · next msg _ =>
          split_ifs with he
          · exact ⟨_, _, rfl, .cons_frame hit hsh (took_nothing (.refl _) rfl)⟩
          · have hfu : ((stream.handleFlag frame.flag).withBuffer msg).readBuffer ≠ [] := he
            obtain ⟨result, after, hre, ht⟩ := took_pollReadLoop_of_buffer hfu len items
            exact ⟨result, after, hre, .cons_frame hit hsh ht⟩
        · exact ⟨_, _, rfl, .cons_frame hit hsh (took_nothing (.refl _) rfl)⟩

theorem keeps_flushClose (hf : ∀ stream after, finish stream = some after → stream.Took stream.io.incoming after)
    (hfl : flushClose finish stream sink = some (result, after)) : stream.Took stream.io.incoming after := by
  unfold flushClose at hfl
  split at hfl
  · cases hfl
    exact took_nothing (.refl _) rfl
  · cases hfl
    exact took_nothing (.refl _) rfl
  · obtain ⟨_, hfi, heq⟩ := Option.map_eq_some_iff.1 hfl
    cases heq
    exact hf stream _ hfi

theorem took_closeHalf {barrier : State → Except IoError (Option Closing) × State} {flag : Flag}
    {messageSent : State → Option State} (hb : ∀ state : State, state.Keeps (barrier state).2)
    (hs : ∀ state after : State, messageSent state = some after → state.Keeps after)
    (hf : ∀ stream after, finish stream = some after → stream.Took stream.io.incoming after)
    (hc : stream.closeHalf barrier flag messageSent finish sink = some (result, after)) :
    stream.Took stream.io.incoming after := by
  have hk := hb stream.state
  unfold closeHalf at hc
  dsimp only at hc
  split at hc
  · cases hc
    exact took_nothing hk rfl
  · cases hc
    exact took_nothing hk rfl
  · obtain ⟨hfi, ht⟩ := keeps_flushClose hf hc
    exact ⟨hk.trans hfi, ht⟩
  split at hc
  · cases hc
    exact took_nothing hk rfl
  · cases hc
    exact took_nothing hk rfl
  split at hc
  · cases hc
    exact took_nothing hk rfl
  · obtain ⟨state, hst, hfl⟩ := Option.bind_eq_some_iff.1 hc
    obtain ⟨hfi, ht⟩ := keeps_flushClose hf hfl
    exact ⟨hk.trans ((hs _ _ hst).trans hfi), ht⟩

theorem took_pollClose (hc : stream.pollClose sink = some (result, after)) : stream.Took stream.io.incoming after := by
  refine took_closeHalf keeps_closeWriteBarrier (fun _ _ => keeps_of_closing (by simp)) ?_ hc
  intro _ _ hf
  obtain ⟨_, hs, hd⟩ := Option.bind_eq_some_iff.1 hf
  split_ifs at hd
  cases hd
  exact took_nothing (keeps_of_closing (by simp) hs) rfl

theorem took_pollCloseRead
    (hc : stream.pollCloseRead sink = some (result, after)) : stream.Took stream.io.incoming after := by
  refine took_closeHalf keeps_closeReadBarrier (fun _ _ => keeps_of_closing (by simp)) ?_ hc
  intro _ _ hf
  obtain ⟨_, hs, hd⟩ := Option.bind_eq_some_iff.1 hf
  cases hd
  exact took_nothing (keeps_of_closing (by simp) hs) rfl

theorem flagsTaken_of_took (ht : stream.Took stream.io.incoming (stream.exec call).2) :
    stream.state.Keeps (stream.exec call).2.state ∧
      ∀ flag ∈ stream.flagsTaken call, flag.shuts (stream.exec call).2.state := by
  obtain ⟨hk, took, hi, hf⟩ := ht
  have hlen : stream.io.incoming.length - (stream.exec call).2.io.incoming.length = took.length := by
    have hl := congrArg List.length hi
    rw [length_append] at hl
    omega
  refine ⟨hk, ?_⟩
  rw [flagsTaken, hlen, hi, take_left]
  exact hf

theorem keeps_exec (hs : stream.Sound) (hh : stream.hearsFin call) :
    stream.state.Keeps (stream.exec call).2.state ∧
      ∀ flag ∈ stream.flagsTaken call, flag.shuts (stream.exec call).2.state := by
  cases call with
  | arrive item =>
    have hst : (stream.exec (.arrive item)).2.state = stream.state := by
      rw [exec]
      split_ifs <;> rfl
    have hf : stream.flagsTaken (.arrive item) = [] := by
      rw [flagsTaken, exec]
      split_ifs
      · simp
      · simp [withIncoming]
    rw [hst, hf]
    exact ⟨.refl _, forall_mem_nil _⟩
  | channelEnd => exact flagsTaken_of_took (took_nothing (.refl _) rfl)
  | pollRead =>
    obtain ⟨result, after, hr, ht⟩ := took_pollRead hh
    refine flagsTaken_of_took ?_
    rw [exec, hr]
    exact ht
  | pollWrite data sink => exact flagsTaken_of_took (stream.took_pollWrite data sink)
  | pollClose sink =>
    obtain ⟨result, after, hc, -⟩ := hs.pollClose sink
    refine flagsTaken_of_took ?_
    rw [exec, hc]
    exact took_pollClose hc
  | pollCloseRead sink =>
    obtain ⟨result, after, hc, -⟩ := hs.pollCloseRead sink
    refine flagsTaken_of_took ?_
    rw [exec, hc]
    exact took_pollCloseRead hc

/-- What holds after every call of a run: no panic so far, and every flag taken so far has shut its half. -/
structure Halves (past : List (Outcome × List Flag)) (stream : Stream) : Prop where
  sound : stream.Sound
  noPanic : ∀ seen ∈ past, seen.1 ≠ .panicked
  shut : ∀ seen ∈ past, ∀ flag ∈ seen.2, flag.shuts stream.state

theorem Halves.observe {past : List (Outcome × List Flag)} (hh : Halves past stream)
    (hhe : stream.hearsFin call) : Halves (past ++ [(stream.observe call).1]) (stream.observe call).2 := by
  obtain ⟨hp, hs⟩ := hh.sound.exec call
  obtain ⟨hk, hf⟩ := keeps_exec hh.sound hhe
  refine ⟨hs, ?_, ?_⟩
  · intro seen hse
    rcases mem_append.1 hse with hpa | hn
    · exact hh.noPanic seen hpa
    · rw [mem_singleton.1 hn]
      exact hp
  · intro seen hse flag hfl
    rcases mem_append.1 hse with hpa | hn
    · exact hk flag (hh.shut seen hpa flag hfl)
    · rw [mem_singleton.1 hn] at hfl
      exact hf flag hfl

/-- In every run in which no `Fin` is read while the write half is being closed: no call panics, and whenever no local
close is in progress, a `Fin` that was taken has left the read half closed and a `StopSending` the write half. -/
theorem run_closes_halves (calls : List Call)
    (hheard : AlongTotal observe (fun stream call => stream.hearsFin call) new calls) :
    (∀ seen ∈ (runTotal observe new calls).1, seen.1 ≠ .panicked) ∧
    ((runTotal observe new calls).2.state.closing = false →
      ((∃ seen ∈ (runTotal observe new calls).1, .fin ∈ seen.2) → (runTotal observe new calls).2.state.readHalfClosed) ∧
      ((∃ seen ∈ (runTotal observe new calls).1, .stopSending ∈ seen.2) →
        (runTotal observe new calls).2.state.writeHalfClosed)) := by
  have hn : Halves [] new := by
    refine ⟨?_, forall_mem_nil _, forall_mem_nil _⟩
    intro ht
    cases ht
  have hh := runTotal_along (fun _ _ _ hh => hh.observe) calls [] hn hheard
  rw [nil_append] at hh
  refine ⟨hh.noPanic, fun hc => ⟨?_, ?_⟩⟩
  · rintro ⟨seen, hs, hf⟩
    exact readHalfClosed_of_shut (hh.shut seen hs .fin hf) hc
  · rintro ⟨seen, hs, hst⟩
    exact writeHalfClosed_of_shut (hh.shut seen hs .stopSending hst) hc

/-- The channel takes a message and flushes it. -/
def flushing : SinkAnswers := ⟨.ready (.ok ()), .ok (), .ready (.ok ())⟩

/-- The channel takes a message and does not flush it yet. -/
def buffering : SinkAnswers := ⟨.ready (.ok ()), .ok (), .pending⟩

/-- The read half is closed locally while a `StopSending` waits on the channel, which a write takes then. -/
theorem run_closes_halves_stopSending :
    (runTotal observe new [.pollCloseRead buffering, arrival (some .stopSending) none,
      .pollCloseRead flushing, .pollWrite [1] flushing]).2.state.writeHalfClosed :=
  ((run_closes_halves [.pollCloseRead buffering, arrival (some .stopSending) none, .pollCloseRead flushing,
    .pollWrite [1] flushing] (by decide)).2 (by decide)).2 (by decide)

/-- A `Fin` that is read between the sending and the flush of the local `Fin` is forgotten: when the local close is
completed, the read half is still open. -/
theorem not_closed_fin_while_closing :
    (∃ seen ∈ (runTotal observe new [.pollClose buffering, arrival (some .fin) none, .pollRead 1,
        .pollClose flushing]).1, Flag.fin ∈ seen.2) ∧
      (runTotal observe new [.pollClose buffering, arrival (some .fin) none, .pollRead 1,
        .pollClose flushing]).2.state = .writeClosed ∧
      State.writeClosed.closing = false ∧ State.writeClosed.readHalfClosed = false := by
  decide

end Stream
end RustLibp2p.WebRtc
