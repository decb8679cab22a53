import RustLibp2p.Fairness
import RustLibp2p.MultistreamProgress

/-! Progress of the two ends together: every action leaves the system as it is or lowers it in a well-founded
order, and an action for which the transport is ready lowers it unless that end has nothing to do. -/

namespace RustLibp2p.Multistream
open PollIo List Listener

namespace End

section Steps

variable {σ : Type} (io : σ → LengthDelimited) (stage : σ → Nat)

/-- How far the bytes of this end have to go. -/
def outgoing (self : End σ) : Nat := 2 * self.held.length + 3 * (self.party.buffer io).length + 3 * self.toWrite.length

def stageOf (self : End σ) : Nat :=
  self.party.stage stage + match self.readError with
    | none => 1
    | some _ => 0

/-- An operation of the application or of the transport that has had an effect. -/
structure Steps (before behind : End σ) (passed : List UInt8) : Prop where
  party : behind.party = before.party ∨ ∃ protocol stream stream', before.party = .settled protocol stream ∧
    behind.party = .settled protocol stream'
  outgoing_le : passed.length + behind.outgoing io ≤ before.outgoing io
  arrived_le : behind.arrived.length ≤ before.arrived.length
  less : passed.length + behind.outgoing io < before.outgoing io ∨
    behind.arrived.length < before.arrived.length ∨ behind.stageOf stage < before.stageOf stage

/-- What an operation comes to: nothing has happened or it has had an effect, and it has one where it must. -/
structure Acts (before : End σ) (must : Prop) (outcome : End σ × List UInt8) : Prop where
  moved : outcome = (before, []) ∨ Steps io stage before outcome.1 outcome.2
  progress : must → Steps io stage before outcome.1 outcome.2

section

variable (self : End σ)

theorem weight_port (remoteDropped : Bool) (answers : List Answer) :
    self.party.weight io (self.port remoteDropped answers) + 3 * self.toWrite.length = self.outgoing io := by
  unfold Party.weight outgoing port
  dsimp only
  rw [length_nil]
  omega

theorem weight_after (party : Party σ) (port : Port) :
    (self.after party port).2.length + (self.after party port).1.outgoing io =
      party.weight io port + 3 * self.toWrite.length := by
  unfold Party.weight after outgoing
  dsimp only
  omega

end

theorem weight_settled (protocol : String) (stream : Negotiated) (port : Port) :
    (Party.settled protocol stream).weight io port = stream.weight port := by
  cases stream <;> rfl

variable {self : End σ} {protocol : String} {stream stream' : Negotiated} {remoteDropped : Bool}
  {answers : List Answer} {port' : Port} {io stage}

section

variable (hpar : self.party = .settled protocol stream)
include hpar

theorem steps_of_changed (hf : stream.Flows (self.port remoteDropped answers) stream' port')
    (hc : stream.Changed (self.port remoteDropped answers) stream' port') (received : List UInt8) :
    Steps io stage self ({ self with received }.after (.settled protocol stream') port').1
      ({ self with received }.after (.settled protocol stream') port').2 := by
  have hb := self.weight_port io remoteDropped answers
  have ha := weight_after io { self with received } (.settled protocol stream') port'
  have hw := hf.weight_le
  have har : port'.incoming.length ≤ self.arrived.length := LengthDelimited.length_le_of_suffix hf.suffix
  rw [hpar, weight_settled] at hb
  rw [weight_settled] at ha
  dsimp only at ha
  refine ⟨.inr ⟨protocol, stream, stream', hpar, rfl⟩, by omega, har, ?_⟩
  rcases hc with hl | hl
  · exact .inl (by omega)
  · exact .inr (.inl hl)

theorem after_of_same (hs : stream.Same (self.port remoteDropped answers) stream' port') :
    self.after (.settled protocol stream') port' = (self, []) := by
  obtain ⟨rfl, hp⟩ := hs
  rw [hp, ← hpar]
  rfl

theorem acts_of_flows {must : Prop} (hf : stream.Flows (self.port remoteDropped answers) stream' port')
    (hm : stream.Changed (self.port remoteDropped answers) stream' port' ∨
      stream.Same (self.port remoteDropped answers) stream' port')
    (hmu : must → stream.Changed (self.port remoteDropped answers) stream' port') :
    Acts io stage self must (self.after (.settled protocol stream') port') := by
  refine ⟨?_, fun h => steps_of_changed hpar hf (hmu h) self.received⟩
  rcases hm with hc | hs
  · exact .inr (steps_of_changed hpar hf hc self.received)
  · exact .inl (after_of_same hpar hs)

theorem write_steps :
    Acts io stage self (self.toWrite ≠ [] ∧ (self.port remoteDropped answers).Served ∧ stream ≠ .invalid)
      (self.write protocol stream (self.port remoteDropped answers)) := by
  unfold write
  by_cases hb : self.toWrite = []
  · rw [if_pos hb]
    exact ⟨.inl rfl, fun h => absurd hb h.1⟩
  rw [if_neg hb]
  rcases stream.pollWrite_flows (self.port remoteDropped answers) hb with
    ⟨result, stream', port', heq, hz, hf, hm, hs⟩ |
    ⟨taken, rest, stream', port', heq, hsp, ht, hi, hw⟩
  · rw [heq]
    match result with
    | .pending | .ready (.error error) => exact acts_of_flows hpar hf hm fun h => hs h.2.1 h.2.2
    | .ready (.ok count) =>
      cases hz count rfl
      exact acts_of_flows hpar hf hm fun h => hs h.2.1 h.2.2
  · rw [heq]
    have hbe := self.weight_port io remoteDropped answers
    have ha := weight_after io { self with toWrite := self.toWrite.drop taken.length } (.settled protocol stream') port'
    have hlen : self.toWrite.length = taken.length + rest.length := by rw [hsp, length_append]
    have hd : self.toWrite.drop taken.length = rest := by rw [hsp, drop_left]
    have hpos := length_pos_iff.2 ht
    rw [hpar, weight_settled] at hbe
    rw [weight_settled] at ha
    dsimp only at ha ⊢
    rw [hd] at ha ⊢
    have hst : Steps io stage self ({ self with toWrite := rest }.after (.settled protocol stream') port').1
        ({ self with toWrite := rest }.after (.settled protocol stream') port').2 := by
      refine ⟨.inr ⟨protocol, stream, stream', hpar, rfl⟩, by omega, ?_, .inl (by omega)⟩
      show port'.incoming.length ≤ self.arrived.length
      rw [hi]
      exact Nat.le_refl _
    exact ⟨.inr hst, fun _ => hst⟩

theorem read_steps [UnsignedVarint] (len : Nat) :
    Acts io stage self (self.readError = none ∧ (Negotiated.Served (self.port remoteDropped answers) ∧ 0 < len) ∧
        ¬ stream.Stuck (self.port remoteDropped answers))
      (self.read protocol stream (self.port remoteDropped answers) len) := by
  unfold read
  by_cases hf : self.readError.isSome
  · rw [if_pos hf]
    exact ⟨.inl rfl, fun h => absurd hf (by rw [h.1]; decide)⟩
  have he : self.readError = none := Option.not_isSome_iff_eq_none.1 hf
  rw [if_neg hf]
  obtain ⟨res, stream', port', heq, ha, hb⟩ :=
    stream.pollRead_advances (self.port remoteDropped answers) len
  rw [heq]
  match res with
  | .pending =>
    have hfi : ¬ ∃ err, (.pending : Poll (Except IoError (List UInt8))) = .ready (.error err) := nofun
    exact acts_of_flows hpar ha.flows (ha.moved hfi) fun h => ha.progress hfi h.2.1 h.2.2
  | .ready (.ok bytes) =>
    have hfi : ¬ ∃ err, (.ready (.ok bytes) : Poll (Except IoError (List UInt8))) = .ready (.error err) := nofun
    refine ⟨?_, fun h => steps_of_changed hpar ha.flows (ha.progress hfi h.2.1 h.2.2) _⟩
    by_cases hem : bytes = []
    · subst hem
      rcases ha.moved hfi with hc | hs
      · exact .inr (steps_of_changed hpar ha.flows hc _)
      unfold receive
      dsimp only
      rw [append_nil]
      exact .inl (after_of_same hpar hs)
    · exact .inr (steps_of_changed hpar ha.flows (hb bytes rfl hem) _)
  | .ready (.error err) =>
    have hl : Steps io stage self ({ self with readError := some err }.after (.settled protocol stream') port').1
        ({ self with readError := some err }.after (.settled protocol stream') port').2 := by
      have hbe := self.weight_port io remoteDropped answers
      have haf := weight_after io { self with readError := some err } (.settled protocol stream') port'
      have hw := ha.flows.weight_le
      rw [hpar, weight_settled] at hbe
      rw [weight_settled] at haf
      dsimp only at haf
      refine ⟨.inr ⟨protocol, stream, stream', hpar, rfl⟩, by omega,
        LengthDelimited.length_le_of_suffix ha.flows.suffix, .inr (.inr ?_)⟩
      unfold stageOf
      rw [hpar, he]
      exact Nat.lt_succ_self _
    exact ⟨.inr hl, fun _ => hl⟩

theorem flush_steps :
    Acts io stage self ((self.port remoteDropped answers).Served ∧ (stream.buffer ≠ [] ∨ self.held ≠ []) ∧
      stream ≠ .invalid) (self.flush protocol stream (self.port remoteDropped answers)) := by
  unfold flush
  obtain ⟨_, _, _, heq, hf, hm, hs⟩ :=
    stream.pollFlush_flows (self.port remoteDropped answers)
  rw [heq]
  exact acts_of_flows hpar hf hm fun h => hs h.1 h.2.1 h.2.2

end

theorem pass_steps (count : Nat) : ({ self with held := self.held.drop count }, self.held.take count) = (self, []) ∨
    Steps io stage self { self with held := self.held.drop count } (self.held.take count) := by
  have hlen : (self.held.take count).length + (self.held.drop count).length = self.held.length := by
    rw [← length_append, take_append_drop]
  cases ht : self.held.take count with
  | nil =>
    have hd := take_append_drop count self.held
    rw [ht, nil_append] at hd
    rw [hd]
    exact .inl rfl
  | cons byte bs =>
    rw [ht, length_cons] at hlen
    have hl : (byte :: bs).length + outgoing io { self with held := self.held.drop count } < outgoing io self := by
      unfold outgoing
      rw [length_cons]
      dsimp only
      omega
    exact .inr ⟨.inl rfl, Nat.le_of_lt hl, Nat.le_refl _, .inl hl⟩

end Steps
end End

variable {σ : Type} {remoteDropped : Bool} {stage : σ → Nat} {answers : List Answer}

namespace End

variable {self : End σ} {future : σ} {passed : List UInt8} {port' : Port}

theorem after_of_answers (hpar : self.party = .selecting future)
    (hp : port' = { self.port remoteDropped answers with answers := port'.answers }) :
    self.after (.selecting future) port' = (self, []) := by
  rw [hp, ← hpar]
  rfl

theorem stageOf_after (stage : σ → Nat) (hpar : self.party = .selecting future) :
    ∃ more, self.stageOf stage = stage future + more ∧
      ∀ party port, (self.after party port).1.stageOf stage = party.stage stage + more := by
  refine ⟨match self.readError with | none => 1 | some _ => 0, ?_, fun _ _ => rfl⟩
  unfold stageOf
  rw [hpar]
  rfl

/-- The order for the dialer's end, with the bytes that were just passed on. -/
def dialerRank (self : End Dialer) (passed : List UInt8) : Nat × Nat × Nat × Nat :=
  (Dialer.partyLeft self.party, passed.length + self.outgoing Dialer.io, self.arrived.length, self.stageOf Dialer.stage)

def listenerRank (self : End Listener) (passed : List UInt8) : Nat × Nat × Nat × Nat :=
  (self.arrived.length, partyOwes self.party, passed.length + self.outgoing io, self.stageOf Listener.stage)

/-- What an operation comes to is lower than the end before. -/
def Lowers (rank : End σ → List UInt8 → Nat × Nat × Nat × Nat) (self : End σ) (outcome : End σ × List UInt8) : Prop :=
  Lower (rank outcome.1 outcome.2) (rank self [])

/-- What is needed of the order of an end: the application and the transport lower it, and so does a poll of the
future that lowers the future's own order. -/
structure Descends (io : σ → LengthDelimited) (stage : σ → Nat) (futureRank : Party σ → Port → Nat × Nat × Nat × Nat)
    (rank : End σ → List UInt8 → Nat × Nat × Nat × Nat) (Stuck : σ → Port → Prop)
    (pollFuture : σ → Port → Party σ × Port) : Prop where
  steps : ∀ {self behind : End σ} {passed : List UInt8}, Steps io stage self behind passed →
    Lower (rank behind passed) (rank self [])
  polled : ∀ {self : End σ} {future : σ} {party : Party σ} {port' : Port} {remoteDropped : Bool}
    {answers : List Answer}, self.party = .selecting future →
    Lower (futureRank party port') (futureRank (.selecting future) (self.port remoteDropped answers)) →
    Lowers rank self (self.after party port')
  moves : ∀ future port, Moves futureRank Stuck future port (pollFuture future port).1 (pollFuture future port).2
  stuck : ∀ {future port}, Stuck future port → Stuck future { port with answers := [] }

theorem Steps.same {io : σ → LengthDelimited} {behind : End σ} (hs : Steps io stage self behind passed)
    {count : Party σ → Nat} (hc : ∀ protocol stream, count (.settled protocol stream) = 0) :
    count behind.party = count self.party := by
  rcases hs.party with heq | ⟨_, _, _, heq, heq'⟩
  · rw [heq]
  · rw [heq, heq', hc, hc]

theorem dialer_descends [UnsignedVarint] :
    Descends Dialer.io Dialer.stage Dialer.rank dialerRank Dialer.Stuck Dialer.poll where
  steps := by
    intro self _ _ hs
    have ho := hs.outgoing_le
    refine .of_le (hs.same fun _ _ => rfl).le (by rw [length_nil]; omega) hs.arrived_le ?_
    rw [length_nil, Nat.zero_add]
    exact .inr hs.less
  polled := by
    intro self _ party port' remoteDropped answers hpar hl
    have hb := self.weight_port Dialer.io remoteDropped answers
    rw [hpar] at hb
    have ha := weight_after Dialer.io self party port'
    obtain ⟨_, hst, hst'⟩ := stageOf_after Dialer.stage hpar
    unfold Lowers dialerRank
    rw [hpar, ha, hst, hst', length_nil, Nat.zero_add, ← hb]
    exact Lower.add_second hl _ _
  moves := fun _ _ => Dialer.poll_moves _ _
  stuck := id

theorem listener_descends [UnsignedVarint] :
    Descends io Listener.stage rank listenerRank Listener.Stuck poll where
  steps := by
    intro self _ _ hs
    have ho := hs.outgoing_le
    refine .of_le hs.arrived_le (hs.same fun _ _ => rfl).le (by rw [length_nil]; omega) ?_
    rw [length_nil, Nat.zero_add]
    rcases hs.less with h | h | h
    · exact .inr (.inr (.inl h))
    · exact .inl h
    · exact .inr (.inr (.inr h))
  polled := by
    intro self _ party port' remoteDropped answers hpar hl
    have hb := self.weight_port io remoteDropped answers
    rw [hpar] at hb
    have ha := weight_after io self party port'
    obtain ⟨_, hst, hst'⟩ := stageOf_after stage hpar
    unfold Lowers listenerRank
    rw [hpar, ha, hst, hst', length_nil, Nat.zero_add, ← hb]
    exact Lower.add_third hl _ _
  moves := fun _ _ => poll_moves _ _
  stuck := id

variable {pollFuture : σ → Port → Party σ × Port}

theorem act_steps [UnsignedVarint] (io : σ → LengthDelimited) (stage : σ → Nat) {op : Op} (hop : op ≠ .poll) :
    self.act pollFuture remoteDropped answers op = (self, []) ∨
    Steps io stage self (self.act pollFuture remoteDropped answers op).1
      (self.act pollFuture remoteDropped answers op).2 := by
  rcases self.act_cases pollFuture remoteDropped answers op with
    heq | ⟨_, rfl, -⟩ | ⟨count, rfl, heq⟩ |
    ⟨protocol, stream, hpar, ⟨rfl, heq⟩ | ⟨len, rfl, heq⟩ | ⟨rfl, heq⟩⟩
  · exact .inl heq
  · exact absurd rfl hop
  · rw [heq]
    exact pass_steps count
  · rw [heq]
    exact (write_steps hpar).moved
  · rw [heq]
    exact (read_steps hpar len).moved
  · rw [heq]
    exact (flush_steps hpar).moved

variable {io : σ → LengthDelimited} {futureRank : Party σ → Port → Nat × Nat × Nat × Nat}
  {rank : End σ → List UInt8 → Nat × Nat × Nat × Nat} {Stuck : σ → Port → Prop}

theorem Descends.act [UnsignedVarint] (hd : Descends io stage futureRank rank Stuck pollFuture) (self : End σ)
    (remoteDropped : Bool) (answers : List Answer) (op : Op) :
    self.act pollFuture remoteDropped answers op = (self, []) ∨
      Lowers rank self (self.act pollFuture remoteDropped answers op) := by
  by_cases hop : op = .poll
  · subst hop
    rcases self.act_cases pollFuture remoteDropped answers .poll with
      heq | ⟨future, -, hpar, heq⟩ | ⟨_, hop, -⟩ | ⟨_, _, -, ⟨hop, -⟩ | ⟨_, hop, -⟩ | ⟨hop, -⟩⟩
    · exact .inl heq
    · rw [heq]
      rcases (hd.moves future (self.port remoteDropped answers)).moved with hl | ⟨hs, hp⟩
      · exact .inr (hd.polled hpar hl)
      · rw [hs]
        exact .inl (after_of_answers hpar hp)
    all_goals cases hop
  · exact (act_steps io stage hop).imp_right hd.steps

end End

namespace System

/-- Five counters, the first counting most: what the dialer may still send, the bytes on their way to the
listener, whether the listener owes a message, the bytes on their way to the dialer, and the stages that the
ends have to go through. -/
def rank (system : System) : Nat × Nat × Nat × Nat × Nat :=
  (Dialer.partyLeft system.dialer.party, system.dialer.outgoing Dialer.io + system.listener.arrived.length,
    partyOwes system.listener.party,
    system.listener.outgoing io + system.dialer.arrived.length,
    system.dialer.stageOf Dialer.stage + system.listener.stageOf Listener.stage)

def Less (first second : System) : Prop :=
  Prod.Lex (· < ·) (Prod.Lex (· < ·) (Prod.Lex (· < ·) (Prod.Lex (· < ·) (· < ·)))) first.rank second.rank

theorem less_wellFounded : WellFounded Less := by
  have hn : WellFounded (fun first second : Nat => first < second) := Nat.lt_wfRel.wf
  exact InvImage.wf rank (hn.prod_lex (hn.prod_lex (hn.prod_lex (hn.prod_lex hn))))

theorem Less.ne {first second : System} (hl : Less first second) : first ≠ second := by
  rintro rfl
  exact less_wellFounded.asymmetric first first hl hl

variable {system : System} {passed : List UInt8}

theorem arrive_nil (self : End σ) : self.arrive [] = self := by
  unfold End.arrive
  rw [append_nil]

theorem length_arrive (self : End σ) (bs : List UInt8) :
    (self.arrive bs).arrived.length = self.arrived.length + bs.length :=
  length_append

theorem less_of_dialer {dialer : End Dialer} (hl : Lower (dialer.dialerRank passed) (system.dialer.dialerRank [])) :
    Less ⟨dialer, system.listener.arrive passed⟩ system := by
  have ho : partyOwes (system.listener.arrive passed).party = partyOwes system.listener.party := rfl
  have hou : (system.listener.arrive passed).outgoing io = system.listener.outgoing io := rfl
  have hs : (system.listener.arrive passed).stageOf stage = system.listener.stageOf stage := rfl
  simp only [Lower, End.dialerRank, length_nil] at hl
  simp [Less, Prod.lex_def, rank, length_arrive, ho, hou, hs, true_and]
  omega

theorem less_of_listener {listener : End Listener}
    (hl : Lower (listener.listenerRank passed) (system.listener.listenerRank [])) :
    Less ⟨system.dialer.arrive passed, listener⟩ system := by
  have hle : Dialer.partyLeft (system.dialer.arrive passed).party = Dialer.partyLeft system.dialer.party := rfl
  have ho : (system.dialer.arrive passed).outgoing Dialer.io = system.dialer.outgoing Dialer.io := rfl
  have hs : (system.dialer.arrive passed).stageOf Dialer.stage = system.dialer.stageOf Dialer.stage := rfl
  simp only [Lower, End.listenerRank, length_nil] at hl
  simp [Less, Prod.lex_def, rank, length_arrive, hle, ho, hs, true_and]
  omega

theorem step_less [UnsignedVarint] (system : System) (action : Action) :
    system.step action = system ∨ Less (system.step action) system := by
  unfold step
  cases action.side with
  | dialer =>
    rcases End.dialer_descends.act system.dialer system.listener.dropped action.answers action.op with heq | hl
    · rw [heq]
      exact .inl (congrArg (mk system.dialer) (arrive_nil _))
    · exact .inr (less_of_dialer hl)
  | listener =>
    rcases End.listener_descends.act system.listener system.dialer.dropped action.answers action.op with heq | hl
    · rw [heq]
      exact .inl (congrArg (mk · system.listener) (arrive_nil _))
    · exact .inr (less_of_listener hl)

end System

inductive Task where
  | poll | write | read | flush
  deriving DecidableEq

/-- The transport is ready for the first calls of an operation, the most that one needs to get on. -/
def Ready (answers : List Answer) : Prop := ∃ first second rest, answers = .ready first :: .ready second :: rest

/-- An action for this task of this side for which the transport is ready. -/
def Helps (kind : Side × Task) (action : Action) : Prop :=
  action.side = kind.1 ∧ Ready action.answers ∧ match kind.2 with
    | .poll => action.op = .poll
    | .write => action.op = .write
    | .read => ∃ len, 0 < len ∧ action.op = .read len
    | .flush => action.op = .flush

/-- The task has something to do at this end. -/
def End.Busy {σ : Type} (Stuck : σ → Port → Prop) (self : End σ) (remoteDropped : Bool) : Task → Prop
  | .poll => ∃ future, self.party = .selecting future ∧ ¬ Stuck future (self.port remoteDropped [])
  | .write => ∃ protocol stream, self.party = .settled protocol stream ∧ stream ≠ .invalid ∧ self.toWrite ≠ []
  | .read => ∃ protocol stream, self.party = .settled protocol stream ∧ self.readError = none ∧
      ¬ stream.Stuck (self.port remoteDropped [])
  | .flush => ∃ protocol stream, self.party = .settled protocol stream ∧ stream ≠ .invalid ∧
      (stream.buffer ≠ [] ∨ self.held ≠ [])

namespace End

variable {io : σ → LengthDelimited} {Stuck : σ → Port → Prop} {pollFuture : σ → Port → Party σ × Port} {self : End σ}
  {task : Task} {side : Side} {action : Action} (hbusy : self.Busy Stuck remoteDropped task)
  (hhel : Helps (side, task) action)
include hbusy hhel

theorem steps_of_busy [UnsignedVarint] (ht : task ≠ .poll) :
    Steps io stage self (self.act pollFuture remoteDropped action.answers action.op).1
      (self.act pollFuture remoteDropped action.answers action.op).2 := by
  obtain ⟨-, ⟨first, second, rest, ha⟩, hop⟩ := hhel
  have hs : (self.port remoteDropped action.answers).Served := ⟨first, _, ha⟩
  cases task with
  | poll => exact absurd rfl ht
  | write =>
    obtain ⟨protocol, stream, hpar, hv, hb⟩ := hbusy
    change action.op = .write at hop
    simp [act, hop, hpar]
    exact (write_steps hpar).progress ⟨hb, hs, hv⟩
  | read =>
    obtain ⟨protocol, stream, hpar, he, hst⟩ := hbusy
    obtain ⟨len, hlen, hop⟩ := hop
    simp [act, hop, hpar]
    exact (read_steps hpar len).progress ⟨he, ⟨⟨first, second, rest, ha⟩, hlen⟩, hst⟩
  | flush =>
    obtain ⟨protocol, stream, hpar, hv, hb⟩ := hbusy
    change action.op = .flush at hop
    simp [act, hop, hpar]
    exact (flush_steps hpar).progress ⟨hs, hb, hv⟩

theorem Descends.lowers [UnsignedVarint] {futureRank : Party σ → Port → Nat × Nat × Nat × Nat}
    {rank : End σ → List UInt8 → Nat × Nat × Nat × Nat}
    (hd : Descends io stage futureRank rank Stuck pollFuture) :
    Lowers rank self (self.act pollFuture remoteDropped action.answers action.op) := by
  by_cases ht : task = .poll
  · subst ht
    obtain ⟨future, hpar, hs⟩ := hbusy
    obtain ⟨-, ⟨first, _, _, ha⟩, hop⟩ := hhel
    rw [hop, act_poll _ hpar]
    exact hd.polled hpar ((hd.moves future _).progress ⟨first, _, ha⟩ fun h => hs (hd.stuck h))
  · exact hd.steps (steps_of_busy hbusy hhel ht)

end End

namespace System

def Busy (system : System) : Prop :=
  (∃ task, system.dialer.Busy Dialer.Stuck system.listener.dropped task) ∨
  ∃ task, system.listener.Busy Listener.Stuck system.dialer.dropped task

variable {system : System} {task : Task} {action : Action}

theorem step_ne_of_dialer [UnsignedVarint] (hbusy : system.dialer.Busy Dialer.Stuck system.listener.dropped task)
    (hhel : Helps (.dialer, task) action) : system.step action ≠ system := by
  unfold step
  rw [show action.side = .dialer from hhel.1]
  exact (less_of_dialer (End.dialer_descends.lowers hbusy hhel)).ne

theorem step_ne_of_listener [UnsignedVarint] (hbusy : system.listener.Busy Listener.Stuck system.dialer.dropped task)
    (hhel : Helps (.listener, task) action) : system.step action ≠ system := by
  unfold step
  rw [show action.side = .listener from hhel.1]
  exact (less_of_listener (End.listener_descends.lowers hbusy hhel)).ne

/-- While there is something to do, an action of some kind changes the system; so a fair schedule comes
to a state where there is nothing to do. -/
theorem eventually_of_busy [UnsignedVarint] {Inv Done : System → Prop}
    (hs : ∀ system action, Inv system → Inv (system.step action))
    (hbusy : ∀ system, Inv system → ¬ Done system → system.Busy) {start : System} (hst : Inv start)
    {schedule : Nat → Action} (hf : Fairness.Fair Helps schedule) :
    ∃ time, Done (Fairness.stateAt step start schedule time) := by
  refine Fairness.eventually_of_fair less_wellFounded hs (fun system action _ => system.step_less action) ?_ hst hf
  intro system hi hd
  rcases hbusy system hi hd with ⟨task, hbusy⟩ | ⟨task, hbusy⟩
  · exact ⟨(.dialer, task), fun action hhel => step_ne_of_dialer hbusy hhel⟩
  · exact ⟨(.listener, task), fun action hhel => step_ne_of_listener hbusy hhel⟩

end System

/-- The schedule in which the tasks of the two ends take turns and every call moves one byte. -/
def takeTurns (time : Nat) : Action :=
  let side := if time % 8 < 4 then .dialer else .listener
  let op :=
    match time % 4 with
    | 0 => .poll
    | 1 => .write
    | 2 => .read 1
    | _ => .flush
  ⟨side, op, [.ready 0, .ready 0]⟩

theorem takeTurns_fair : Fairness.Fair Helps takeTurns := by
  have hr : Ready [.ready 0, .ready 0] := ⟨0, 0, [], rfl⟩
  have ht : ∀ time turn, turn < 8 → takeTurns (8 * time + turn) = takeTurns turn := by
    intro time turn hl
    unfold takeTurns
    rw [show (8 * time + turn) % 8 = turn % 8 by omega, show (8 * time + turn) % 4 = turn % 4 by omega]
  rintro ⟨side, task⟩ time
  have hla : ∀ turn, turn < 8 → Helps (side, task) (takeTurns turn) →
      ∃ later, time ≤ later ∧ Helps (side, task) (takeTurns later) :=
    fun turn hl hhel => ⟨8 * time + turn, by omega, by rw [ht time turn hl]; exact hhel⟩
  cases side with
  | dialer =>
    cases task with
    | poll => exact hla 0 (by decide) ⟨rfl, hr, rfl⟩
    | write => exact hla 1 (by decide) ⟨rfl, hr, rfl⟩
    | read => exact hla 2 (by decide) ⟨rfl, hr, 1, Nat.one_pos, rfl⟩
    | flush => exact hla 3 (by decide) ⟨rfl, hr, rfl⟩
  | listener =>
    cases task with
    | poll => exact hla 4 (by decide) ⟨rfl, hr, rfl⟩
    | write => exact hla 5 (by decide) ⟨rfl, hr, rfl⟩
    | read => exact hla 6 (by decide) ⟨rfl, hr, 1, Nat.one_pos, rfl⟩
    | flush => exact hla 7 (by decide) ⟨rfl, hr, rfl⟩

end RustLibp2p.Multistream
