import RustLibp2p.MultistreamSelect

/-! Every operation on an end leaves it as it is or makes progress, in an order in which the bytes that are on
their way count more the farther they have to go, and a ready transport always makes progress unless there
is nothing to do. -/

namespace RustLibp2p.Multistream
open PollIo LengthDelimited Party

namespace Party

variable {σ : Type}

def buffer (io : σ → LengthDelimited) : Party σ → List UInt8
  | .selecting future => (io future).writeBuffer
  | .settled _ (.expecting io _ _) => io.writeBuffer
  | _ => []

/-- How far the outgoing bytes have to go, and how far the negotiation. -/
def weight (io : σ → LengthDelimited) (party : Party σ) (port : Port) : Nat :=
  port.passed.length + 2 * port.held.length + 3 * (party.buffer io).length

def stage (stage : σ → Nat) : Party σ → Nat
  | .selecting future => stage future
  | .settled _ _ => 1
  | .failed _ => 0

theorem weight_le {io : σ → LengthDelimited} {party : Party σ} (hb : party.buffer io = [])
    (io' : LengthDelimited) (port : Port) : party.weight io port ≤ io'.weight port := by
  unfold weight LengthDelimited.weight
  rw [hb, List.length_nil]
  omega

theorem completed_cases (io : LengthDelimited) (prot : String) :
    (completed io prot : Party σ) = .settled prot .completed ∨
    ∃ error, (completed io prot : Party σ) = .failed error := by
  unfold completed
  cases io.intoInner with
  | ok => exact .inl rfl
  | error => exact .inr ⟨_, rfl⟩

end Party

/-- Lexicographic order of four counters. -/
def Lower (first second : Nat × Nat × Nat × Nat) : Prop :=
  first.1 < second.1 ∨ first.1 = second.1 ∧ (first.2.1 < second.2.1 ∨ first.2.1 = second.2.1 ∧
    (first.2.2.1 < second.2.2.1 ∨ first.2.2.1 = second.2.2.1 ∧ first.2.2.2 < second.2.2.2))

theorem Lower.trans {first second third : Nat × Nat × Nat × Nat} (hf : Lower first second)
    (hs : Lower second third) : Lower first third := by
  unfold Lower at *
  omega

theorem Lower.of_le {a b c d a' b' c' d' : Nat} (ha : a' ≤ a) (hb : b' ≤ b) (hc : c' ≤ c)
    (hl : a' < a ∨ b' < b ∨ c' < c ∨ d' < d) : Lower (a', b', c', d') (a, b, c, d) := by
  simp [Lower]
  omega

section

variable {a b c d a' b' c' d' : Nat} (hlow : Lower (a', b', c', d') (a, b, c, d)) (more more' : Nat)
include hlow more more'

theorem Lower.add_second : Lower (a', b' + more, c', d' + more') (a, b + more, c, d + more') := by
  simp only [Lower] at *
  omega

theorem Lower.add_third : Lower (a', b', c' + more, d' + more') (a, b, c + more, d + more') := by
  simp only [Lower] at *
  omega

end

section Moves

variable {σ : Type} (rank : Party σ → Port → Nat × Nat × Nat × Nat) (Stuck : σ → Port → Prop)

/-- What one turn of a future's loop, or a whole poll, comes to. -/
structure Moves (future : σ) (port : Port) (party : Party σ) (port' : Port) : Prop where
  moved : Lower (rank party port') (rank (.selecting future) port) ∨
    party = .selecting future ∧ port' = { port with answers := port'.answers }
  progress : port.Served → ¬ Stuck future port → Lower (rank party port') (rank (.selecting future) port)

variable {rank Stuck} {future : σ} {port : Port} {turns : Nat}

theorem Moves.of_lower {port' : Port} {party : Party σ}
    (hlow : Lower (rank party port') (rank (.selecting future) port)) : Moves rank Stuck future port party port' :=
  ⟨.inl hlow, fun _ _ => hlow⟩

theorem Moves.of_waits {port' : Port} {future' : σ} {io io' : LengthDelimited}
    (hw : Writes io port .pending io' port') (hlow : io'.weight port' < io.weight port →
      Lower (rank (.selecting future') port') (rank (.selecting future) port))
    (hs : io' = io → future' = future) : Moves rank Stuck future port (.selecting future') port' := by
  refine ⟨?_, fun hse _ => hlow (hw.progress nofun hse)⟩
  rcases hw.sends.moved with hl | ⟨rfl, heq⟩
  · exact .inl (hlow hl)
  · exact .inr ⟨congrArg _ (hs rfl), heq⟩

variable {turn : σ × Port → Turn (σ × Port) (Party σ × Port)}

/-- A turn goes on with the property, or stops with it. -/
def TurnKeeps (turn : σ × Port → Turn (σ × Port) (Party σ × Port)) (Inv : Party σ → Port → Prop) : Prop :=
  ∀ future port, Inv (.selecting future) port →
    (∃ future' port', turn (future, port) = .next (future', port') ∧ Inv (.selecting future') port') ∨
    ∃ party port', turn (future, port) = .stop (party, port') ∧ Inv party port'

variable (turn rank Stuck) in
/-- A turn goes on lower and with less fuel, or it stops. -/
def TurnLowers (fuel : σ → Port → Nat) (future : σ) (port : Port) : Prop :=
  (∃ future' port', turn (future, port) = .next (future', port') ∧
    Lower (rank (.selecting future') port') (rank (.selecting future) port) ∧ fuel future' port' < fuel future port) ∨
  ∃ party port', turn (future, port) = .stop (party, port') ∧ Moves rank Stuck future port party port'

theorem loop_moves (fuel : σ → Port → Nat)
    (hr : ∀ party port answers, rank party { port with answers } = rank party port)
    (ht : ∀ future port, TurnLowers rank Stuck turn fuel future port) (htu : fuel future port < turns) :
    Moves rank Stuck future port ((loop turn turns (future, port)).getD (.selecting future, port)).1
      ((loop turn turns (future, port)).getD (.selecting future, port)).2 := by
  refine loop_spec (fun st => st = (future, port) ∨
      Lower (rank (.selecting st.1) st.2) (rank (.selecting future) port))
    (fun (out : _ × _) => Moves rank Stuck future port out.1 out.2) (fun st => fuel st.1 st.2)
    ?_ (.inl rfl) htu _
  rintro ⟨future', port'⟩ hs
  rcases ht future' port' with ⟨_, _, heq, hlow, hf⟩ | ⟨_, port'', heq, hm⟩
  · rw [heq]
    refine ⟨.inr ?_, hf⟩
    rcases hs with hs | hs
    · cases hs
      exact hlow
    · exact hlow.trans hs
  · rw [heq]
    rcases hs with hs | hs
    · cases hs
      exact hm
    refine .of_lower ?_
    rcases hm.moved with hlow | ⟨rfl, hp⟩
    · exact hlow.trans hs
    · have hsa : rank (.selecting future') port'' = rank (.selecting future') port' := by rw [hp, hr]
      exact hsa ▸ hs

theorem loop_keeps {Inv : Party σ → Port → Prop} (fuel : σ → Port → Nat)
    (hm : ∀ future port, TurnLowers rank Stuck turn fuel future port)
    (ht : TurnKeeps turn Inv) (hs : Inv (.selecting future) port) (htu : fuel future port < turns) :
    Inv ((loop turn turns (future, port)).getD (.selecting future, port)).1
      ((loop turn turns (future, port)).getD (.selecting future, port)).2 := by
  refine loop_spec (fun st => Inv (.selecting st.1) st.2)
    (fun (out : _ × _) => Inv out.1 out.2) (fun st => fuel st.1 st.2) ?_ hs htu _
  rintro ⟨future', port'⟩ hst
  rcases ht future' port' hst with ⟨_, _, heq, hk⟩ | ⟨_, _, heq, hk⟩
  · rw [heq]
    rcases hm future' port' with ⟨_, _, heq', -, hf⟩ | ⟨_, _, heq', -⟩
    · cases heq.symm.trans heq'
      exact ⟨hk, hf⟩
    · cases heq.symm.trans heq'
  · rw [heq]
    exact hk

end Moves

namespace Dialer

/-- The messages that may still be sent. -/
def left (dialer : Dialer) : Nat :=
  match dialer.phase with
  | .sendHeader => dialer.protocols.length + 1
  | .sendProtocol _ => dialer.protocols.length + 1
  | .flushProtocol _ => dialer.protocols.length
  | .awaitProtocol _ => dialer.protocols.length

def stage (dialer : Dialer) : Nat :=
  match dialer.phase with
  | .sendHeader => 4
  | .sendProtocol _ => 4
  | .flushProtocol _ => 3
  | .awaitProtocol _ => 2

/-- How many turns may follow before the transport is asked again. -/
def fuel (dialer : Dialer) (port : Port) : Nat :=
  4 * port.answers.length + match dialer.phase with
    | .sendHeader => 3
    | .sendProtocol _ => 2
    | .flushProtocol _ => 1
    | .awaitProtocol _ => 0

def partyLeft : Party Dialer → Nat
  | .selecting dialer => dialer.left
  | _ => 0

/-- A dialer never sends more than it has left to send, so this comes before the bytes it reads. -/
def rank (party : Party Dialer) (port : Port) : Nat × Nat × Nat × Nat :=
  (partyLeft party, party.weight io port, port.incoming.length, party.stage stage)

/-- Nothing to read. -/
def Stuck (dialer : Dialer) (port : Port) : Prop :=
  (∃ protocol, dialer.phase = .awaitProtocol protocol) ∧ port.incoming = [] ∧ port.remoteDropped = false

variable {dialer : Dialer} {port port' : Port}

theorem moves_of_waits {io' : LengthDelimited} (hw : Writes dialer.io port .pending io' port') :
    Moves rank Stuck dialer port (.selecting { dialer with io := io' }) port' :=
  .of_waits hw (fun hl => .inr ⟨rfl, .inl hl⟩) fun h => h ▸ rfl

theorem moves_of_left {party : Party Dialer}
    (hl : partyLeft party < dialer.left) : Moves rank Stuck dialer port party port' :=
  .of_lower (.inl hl)

section

variable (dialer : Dialer) (port : Port)

theorem turn_moves [UnsignedVarint] : TurnLowers rank Stuck turn fuel dialer port := by
  unfold TurnLowers turn
  obtain ⟨version, prots, io, phase⟩ := dialer
  cases phase with
  | sendHeader | sendProtocol =>
    obtain ⟨res, io', port', heq, hw⟩ := io.pollReady_writes port
    have ha := hw.sends.answers
    dsimp only
    rw [heq]
    match res with
    | .pending => exact .inr ⟨_, _, rfl, moves_of_waits hw⟩
    | .ready (.error err) => exact .inr ⟨_, _, rfl, moves_of_left (Nat.succ_pos _)⟩
    | .ready (.ok ()) =>
      dsimp only
      repeat' split
      -- A dialer that stops has nothing left to send, and one that goes on has a message less.
      all_goals first
        | exact .inr ⟨_, _, rfl, moves_of_left (Nat.succ_pos _)⟩
        | refine .inl ⟨_, _, rfl, .inl (Nat.lt_succ_self _), ?_⟩
          unfold fuel
          dsimp only
          omega
  | flushProtocol =>
    dsimp only
    obtain ⟨res, io', port', heq, hw, hf⟩ := io.pollFlush_writes port
    have hwe := hw.sends.weight_le
    have hi : port'.incoming.length ≤ port.incoming.length := by rw [hw.sends.incoming]
    rw [heq]
    match res with
    | .pending => exact .inr ⟨_, _, rfl, moves_of_waits hw⟩
    | .ready (.error err) =>
      exact .inr ⟨_, _, rfl, .of_lower (.of_le (Nat.zero_le _)
        (Nat.le_trans (weight_le rfl io' port') hwe) hi (.inr (.inr (.inr (Nat.succ_pos _)))))⟩
    | .ready (.ok ()) =>
      obtain ⟨-, -, ha⟩ := hf rfl
      refine .inl ⟨_, _, rfl, .of_le (Nat.le_refl _) hwe hi (.inr (.inr (.inr ?_))), ?_⟩
      · exact Nat.lt_succ_self _
      · unfold fuel
        dsimp only
        omega
  | awaitProtocol prot =>
    dsimp only
    have hr := pollStream_reads io port
    generalize pollStream io port = output at hr ⊢
    cases hr with
    | idle ha hs =>
      refine .inr ⟨_, _, rfl, .inr ⟨rfl, rfl⟩, fun hre hst => ?_⟩
      exact absurd ⟨⟨prot, rfl⟩, hs hre⟩ hst
    | partly ht =>
      exact .inr ⟨_, _, rfl, .of_lower (.of_le (Nat.le_refl _) (Nat.le_of_eq ht.weight_eq)
        (Nat.le_of_lt ht.shorter) (.inr (.inr (.inl ht.shorter))))⟩
    | ended hp hb hsu ha hrs =>
      rename_i res io' port'
      have hfa : ∀ err, Moves rank Stuck ⟨version, prots, io, .awaitProtocol prot⟩ port (.failed err) port' :=
        fun err => .of_lower (.of_le (Nat.zero_le _)
          (Nat.le_trans (weight_le rfl io' port') (Nat.le_of_eq (weight_of_reads hp hb)))
          (length_le_of_suffix hsu) (.inr (.inr (.inr (Nat.succ_pos _)))))
      match res with
      | none | some (.error err) => exact .inr ⟨_, _, rfl, hfa _⟩
      | some (.ok msg) => exact absurd rfl (hrs msg)
    | item ht =>
      rename_i msg io' port'
      have hlow : ∀ party, partyLeft party ≤ prots.length → party.weight Dialer.io port' ≤ io'.weight port' →
          Lower (rank party port') (rank (.selecting ⟨version, prots, io, .awaitProtocol prot⟩) port) :=
        fun party hl hwe => .of_le hl (hwe.trans ht.weight_eq.le) (Nat.le_of_lt ht.shorter)
          (.inr (.inr (.inl ht.shorter)))
      have hd : ∀ party, partyLeft party = 0 → party.buffer Dialer.io = [] →
          Moves rank Stuck ⟨version, prots, io, .awaitProtocol prot⟩ port party port' :=
        fun party hl hb => .of_lower (hlow party (hl ▸ Nat.zero_le _) (weight_le hb io' port'))
      have ha := ht.answers
      match msg with
      | .header line =>
        dsimp only
        split
        · refine .inl ⟨_, _, rfl, hlow _ (Nat.le_refl _) (Nat.le_refl _), ?_⟩
          unfold fuel
          dsimp only
          omega
        · exact .inr ⟨_, _, rfl, hd _ rfl rfl⟩
      | .protocol p =>
        dsimp only
        split
        · refine .inr ⟨_, _, rfl, ?_⟩
          rcases completed_cases io' prot with heq | ⟨err, heq⟩
          all_goals exact heq ▸ hd _ rfl rfl
        · exact .inr ⟨_, _, rfl, hd _ rfl rfl⟩
      | .notAvailable =>
        cases prots with
        | nil => exact .inr ⟨_, _, rfl, hd _ rfl rfl⟩
        | cons =>
          refine .inl ⟨_, _, rfl, hlow _ (Nat.le_refl _) (Nat.le_refl _), ?_⟩
          unfold fuel
          dsimp only
          omega
      | .listProtocols | .protocols protos => exact .inr ⟨_, _, rfl, hd _ rfl rfl⟩

theorem fuel_lt : dialer.fuel port < 4 * port.answers.length + 4 := by
  unfold fuel
  split <;> omega

theorem poll_moves [UnsignedVarint] :
    Moves rank Stuck dialer port (dialer.poll port).1 (dialer.poll port).2 :=
  loop_moves fuel (fun _ _ _ => rfl) (fun _ _ => turn_moves _ _) (fuel_lt dialer port)

end

theorem poll_keeps [UnsignedVarint] {Inv : Party Dialer → Port → Prop} (ht : TurnKeeps turn Inv)
    (hs : Inv (.selecting dialer) port) :
    Inv (dialer.poll port).1 (dialer.poll port).2 :=
  loop_keeps fuel (fun _ _ => turn_moves _ _) ht hs (fuel_lt dialer port)

end Dialer

namespace Listener

def owes (listener : Listener) : Nat :=
  match listener.phase with
  | .sendHeader => 1
  | .sendMessage _ _ => 1
  | _ => 0

def stage (listener : Listener) : Nat :=
  match listener.phase with
  | .sendHeader => 4
  | .sendMessage _ _ => 4
  | .flush _ => 3
  | .recvHeader => 2
  | .recvMessage => 2

def fuel (listener : Listener) (port : Port) : Nat :=
  4 * port.answers.length + match listener.phase with
    | .sendHeader => 2
    | .sendMessage _ _ => 2
    | .flush _ => 1
    | .recvHeader => 0
    | .recvMessage => 0

def partyOwes : Party Listener → Nat
  | .selecting listener => listener.owes
  | _ => 0

/-- A listener sends only in answer to what it reads, so this comes before the bytes it sends. -/
def rank (party : Party Listener) (port : Port) : Nat × Nat × Nat × Nat :=
  (port.incoming.length, partyOwes party, party.weight io port, party.stage stage)

/-- Nothing to read. -/
def Stuck (listener : Listener) (port : Port) : Prop :=
  (listener.phase = .recvHeader ∨ listener.phase = .recvMessage) ∧ port.incoming = [] ∧ port.remoteDropped = false

variable {listener : Listener} {port port' : Port} {io' : LengthDelimited} {party : Party Listener}

theorem moves_of_waits (hw : Writes listener.io port .pending io' port') :
    Moves rank Stuck listener port (.selecting { listener with io := io' }) port' :=
  .of_waits hw (fun hl => .inr ⟨congrArg List.length hw.sends.incoming, .inr ⟨rfl, .inl hl⟩⟩) fun h => h ▸ rfl

theorem lower_of_owes (hi : port'.incoming = port.incoming)
    (hl : partyOwes party < listener.owes) : Lower (rank party port') (rank (.selecting listener) port) :=
  .inr ⟨congrArg List.length hi, .inl hl⟩

theorem lower_of_done (ho : partyOwes party = 0)
    (hb : party.buffer io = []) (hw : io'.weight port' ≤ listener.io.weight port)
    (hi : port'.incoming.length ≤ port.incoming.length) (hs : party.stage stage < listener.stage) :
    Lower (rank party port') (rank (.selecting listener) port) :=
  .of_le hi (ho ▸ Nat.zero_le _) (Nat.le_trans (weight_le hb io' port') hw) (.inr (.inr (.inr hs)))

section

variable (listener : Listener) (port : Port)

theorem turn_moves [UnsignedVarint] : TurnLowers rank Stuck turn fuel listener port := by
  unfold TurnLowers turn
  obtain ⟨_, io, phase, _⟩ := listener
  cases phase with
  | recvHeader | recvMessage =>
    have hr := pollStream_reads io port
    dsimp only
    generalize pollStream io port = output at hr ⊢
    cases hr with
    | idle ha hs =>
      refine .inr ⟨_, _, rfl, .inr ⟨rfl, rfl⟩, fun hre hst => ?_⟩
      exact absurd ⟨by simp, hs hre⟩ hst
    | partly ht => exact .inr ⟨_, _, rfl, .of_lower (.inl ht.shorter)⟩
    | ended hp hb hsu ha hrs =>
      rename_i res io' port'
      have hw := Nat.le_of_eq (weight_of_reads hp hb)
      have hi := length_le_of_suffix hsu
      match res with
      | none | some (.error err) =>
        exact .inr ⟨_, _, rfl, .of_lower (lower_of_done rfl rfl hw hi (Nat.succ_pos _))⟩
      | some (.ok message) => exact absurd rfl (hrs message)
    | item ht =>
      have ha := ht.answers
      dsimp only
      split
      · refine .inl ⟨_, _, rfl, .inl ht.shorter, ?_⟩
        unfold fuel
        dsimp only
        omega
      · exact .inr ⟨_, _, rfl, .of_lower (.inl ht.shorter)⟩
  | sendHeader | sendMessage =>
    obtain ⟨res, io', port', heq, hwr⟩ := io.pollReady_writes port
    have hi := hwr.sends.incoming
    have ha := hwr.sends.answers
    dsimp only
    rw [heq]
    match res with
    | .pending => exact .inr ⟨_, _, rfl, moves_of_waits hwr⟩
    | .ready (.error err) => exact .inr ⟨_, _, rfl, .of_lower (lower_of_owes hi Nat.one_pos)⟩
    | .ready (.ok ()) =>
      dsimp only
      split
      · exact .inr ⟨_, _, rfl, .of_lower (lower_of_owes hi Nat.one_pos)⟩
      refine .inl ⟨_, _, rfl, lower_of_owes hi Nat.one_pos, ?_⟩
      unfold fuel
      dsimp only
      omega
  | flush prot =>
    dsimp only
    obtain ⟨res, io', port', heq, hwr, hf⟩ := io.pollFlush_writes port
    have hw := hwr.sends.weight_le
    have hi : port'.incoming.length ≤ port.incoming.length := by rw [hwr.sends.incoming]
    rw [heq]
    match res with
    | .pending => exact .inr ⟨_, _, rfl, moves_of_waits hwr⟩
    | .ready (.error err) =>
      exact .inr ⟨_, _, rfl, .of_lower (lower_of_done rfl rfl hw hi (Nat.succ_pos _))⟩
    | .ready (.ok ()) =>
      obtain ⟨-, -, ha⟩ := hf rfl
      cases prot with
      | some prot =>
        refine .inr ⟨_, _, rfl, .of_lower ?_⟩
        rcases completed_cases io' prot with heq | ⟨err, heq⟩
        · exact heq ▸ lower_of_done rfl rfl hw hi (show 1 < 3 by decide)
        · exact heq ▸ lower_of_done rfl rfl hw hi (Nat.succ_pos _)
      | none =>
        refine .inl ⟨_, _, rfl, .of_le hi (Nat.le_refl _) hw (.inr (.inr (.inr ?_))), ?_⟩
        · exact Nat.lt_succ_self _
        · unfold fuel
          dsimp only
          omega

theorem fuel_lt : listener.fuel port < 4 * port.answers.length + 4 := by
  unfold fuel
  split <;> omega

theorem poll_moves [UnsignedVarint] : Moves rank Stuck listener port (listener.poll port).1 (listener.poll port).2 :=
  loop_moves fuel (fun _ _ _ => rfl) (fun _ _ => turn_moves _ _) (fuel_lt listener port)

end

theorem poll_keeps [UnsignedVarint] {Inv : Party Listener → Port → Prop}
    (ht : TurnKeeps turn Inv) (hs : Inv (.selecting listener) port) :
    Inv (listener.poll port).1 (listener.poll port).2 :=
  loop_keeps fuel (fun _ _ => turn_moves _ _) ht hs (fuel_lt listener port)

end Listener

/-! The stream that a negotiation settles on: reading, writing and flushing leave it as it is or move bytes
on, and a ready transport moves bytes unless there are none. -/
open List

namespace Negotiated

def buffer : Negotiated → List UInt8
  | .expecting io _ _ => io.writeBuffer
  | _ => []

def weight (stream : Negotiated) (port : Port) : Nat :=
  port.passed.length + 2 * port.held.length + 3 * stream.buffer.length

/-- Bytes have moved on or were read, if anything happened. -/
structure Flows (stream : Negotiated) (port : Port) (stream' : Negotiated) (port' : Port) : Prop where
  weight_le : stream'.weight port' ≤ stream.weight port
  suffix : ∃ taken, port.incoming = taken ++ port'.incoming
  remoteDropped : port'.remoteDropped = port.remoteDropped

section

variable (stream : Negotiated) (port : Port) (stream' : Negotiated) (port' : Port)

def Changed : Prop := stream'.weight port' < stream.weight port ∨ port'.incoming.length < port.incoming.length

def Same : Prop := stream' = stream ∧ port' = { port with answers := port'.answers }

theorem Flows.refl (answers : List Answer) : Flows stream port stream { port with answers } :=
  ⟨Nat.le_refl _, ⟨[], rfl⟩, rfl⟩

end

variable {stream stream' stream'' : Negotiated} {port port' port'' : Port} {io io' : LengthDelimited}
  {header : Option HeaderLine} {protocol : Protocol}

theorem Flows.trans (hf : Flows stream port stream' port') (hn : Flows stream' port' stream'' port'') :
    Flows stream port stream'' port'' where
  weight_le := Nat.le_trans hn.weight_le hf.weight_le
  suffix := by
    obtain ⟨taken, ht⟩ := hf.suffix
    obtain ⟨taken', ht'⟩ := hn.suffix
    exact ⟨taken ++ taken', by rw [append_assoc, ← ht', ht]⟩
  remoteDropped := hn.remoteDropped.trans hf.remoteDropped

theorem Flows.changed_right (hf : Flows stream port stream' port')
    (hc : Changed stream' port' stream'' port'') : Changed stream port stream'' port'' := by
  have hw := hf.weight_le
  have hi := length_le_of_suffix hf.suffix
  unfold Changed at *
  omega

theorem Flows.changed_left (hn : Flows stream' port' stream'' port'')
    (hc : Changed stream port stream' port') : Changed stream port stream'' port'' := by
  have hw := hn.weight_le
  have hi := length_le_of_suffix hn.suffix
  unfold Changed at *
  omega

theorem Flows.of_sends (hs : Sends io port io' port') (header : Option HeaderLine) (protocol : Protocol) :
    Flows (.expecting io header protocol) port (.expecting io' header protocol) port' :=
  ⟨hs.weight_le, ⟨[], hs.incoming.symm⟩, hs.remoteDropped⟩

theorem Flows.of_reads (hp : port' = { port with incoming := port'.incoming, answers := port'.answers })
    (hb : io'.writeBuffer = io.writeBuffer) (hs : ∃ taken, port.incoming = taken ++ port'.incoming)
    (hst : stream'.buffer = [] ∨ stream'.buffer = io'.writeBuffer) :
    Flows (.expecting io header protocol) port stream' port' := by
  refine ⟨?_, hs, by rw [hp]⟩
  have hw := weight_of_reads hp hb
  unfold LengthDelimited.weight at hw
  unfold weight
  rcases hst with hst | hst
  · rw [hst, length_nil]
    show _ ≤ port.passed.length + 2 * port.held.length + 3 * io.writeBuffer.length
    omega
  · rw [hst]
    exact Nat.le_of_eq hw

theorem moved_of_sends (hs : Sends io port io' port') :
    Changed (.expecting io header protocol) port (.expecting io' header protocol) port' ∨
      Same (.expecting io header protocol) port (.expecting io' header protocol) port' := by
  rcases hs.moved with hl | ⟨rfl, hp⟩
  · exact .inl (.inl hl)
  · exact .inr ⟨rfl, hp⟩

theorem pollFlush_flows (stream : Negotiated) (port : Port) :
    ∃ res stream' port', stream.pollFlush port = (res, stream', port') ∧ Flows stream port stream' port' ∧
      (Changed stream port stream' port' ∨ Same stream port stream' port') ∧
      (port.Served → stream.buffer ≠ [] ∨ port.held ≠ [] → stream ≠ .invalid → Changed stream port stream' port') := by
  cases stream with
  | completed =>
    unfold pollFlush
    dsimp only
    rcases port.pollFlush_cases with ⟨answers, heq, -, hu⟩ | ⟨answers, heq, _⟩
    · rw [heq]
      exact ⟨_, _, _, rfl, .refl _ _ _, .inr ⟨rfl, rfl⟩, fun hs => absurd hs hu⟩
    rw [heq]
    have hc : port.held ≠ [] → Changed .completed port .completed
        { port with held := [], passed := port.passed ++ port.held, answers } := by
      intro hh
      have hpos := length_pos_iff.2 hh
      left
      unfold weight
      simp [length_append, length_nil]
      omega
    refine ⟨_, _, _, rfl, ⟨?_, ⟨[], rfl⟩, rfl⟩, ?_, fun _ hb _ => hc ?_⟩
    · unfold weight
      simp [length_append, length_nil]
      omega
    · by_cases hh : port.held = []
      · refine .inr ⟨rfl, ?_⟩
        rw [hh, append_nil]
      · exact .inl (hc hh)
    · rcases hb with h | h
      · exact absurd rfl h
      · exact h
  | expecting io header protocol =>
    obtain ⟨res, _, _, heq, hw, hf⟩ := io.pollFlush_writes port
    unfold pollFlush
    dsimp only
    rw [heq]
    refine ⟨_, _, _, rfl, .of_sends hw.sends header protocol, moved_of_sends hw.sends, fun hs hb _ => ?_⟩
    by_cases hd : res = .ready (.ok ())
    · obtain ⟨hbu, hh, -⟩ := hf hd
      rcases hw.sends.moved with hl | ⟨rfl, hp⟩
      · exact .inl hl
      rw [hp] at hh
      rcases hb with h | h
      · exact absurd hbu h
      · exact absurd hh h
    · exact .inl (hw.progress hd hs)
  | invalid => exact ⟨_, _, _, rfl, .refl _ _ port.answers, .inr ⟨rfl, rfl⟩, fun _ _ h => absurd rfl h⟩

/-- Each of the bytes that are taken counts as much as a buffered one until then. -/
theorem pollWrite_flows (stream : Negotiated) (port : Port) {bs : List UInt8} (hb : bs ≠ []) :
    (∃ res stream' port', stream.pollWrite port bs = (res, stream', port') ∧
      (∀ count, res = .ready (.ok count) → count = 0) ∧ Flows stream port stream' port' ∧
      (Changed stream port stream' port' ∨ Same stream port stream' port') ∧
      (port.Served → stream ≠ .invalid → Changed stream port stream' port')) ∨
    ∃ taken rest stream' port', stream.pollWrite port bs = (.ready (.ok taken.length), stream', port') ∧
      bs = taken ++ rest ∧ taken ≠ [] ∧ port'.incoming = port.incoming ∧
      stream'.weight port' ≤ stream.weight port + 2 * taken.length := by
  cases stream with
  | completed =>
    unfold pollWrite
    rcases port.pollWrite_cases hb with
      ⟨answers, heq, -, hu⟩ | ⟨res, answers, heq, -, hu, -, hr⟩ |
      ⟨taken, rest, answers, heq, -, hs, ht⟩
    · dsimp only
      rw [heq]
      exact .inl ⟨_, _, _, rfl, nofun, .refl _ _ _, .inr ⟨rfl, rfl⟩, fun hse => absurd hse hu⟩
    · dsimp only
      rw [heq]
      refine .inl ⟨_, _, _, rfl, ?_, .refl _ _ _, .inr ⟨rfl, rfl⟩, fun hse => absurd hse hu⟩
      rintro count hc
      rcases hr with rfl | rfl
      · cases hc
        rfl
      · cases hc
    · dsimp only
      rw [heq]
      refine .inr ⟨taken, rest, _, _, rfl, hs, ht, rfl, ?_⟩
      unfold weight
      simp [length_append]
      omega
  | expecting io header protocol =>
    unfold pollWrite
    rcases io.pollWrite_writes port hb with
      ⟨res, io', port', heq, hr, hsn, hp⟩ |
      ⟨taken, rest, io', port', heq, hs, ht, -, -, hi, -, hw⟩
    · dsimp only
      rw [heq]
      refine .inl ⟨_, _, _, rfl, ?_, .of_sends hsn header protocol, moved_of_sends hsn, fun hse _ => .inl (hp hse)⟩
      rintro count rfl
      rcases hr with h | ⟨_, h⟩ | h
      · cases h
      · cases h
      · cases h
        rfl
    · dsimp only
      rw [heq]
      exact .inr ⟨taken, rest, _, _, rfl, hs, ht, hi, hw⟩
  | invalid => exact .inl ⟨_, _, _, rfl, nofun, .refl _ _ port.answers, .inr ⟨rfl, rfl⟩, fun _ h => absurd rfl h⟩

/-- What reading the outstanding messages comes to. -/
structure Confirms (stream : Negotiated) (port : Port) (result : Poll (Except NegotiationError Unit))
    (stream' : Negotiated) (port' : Port) : Prop where
  flows : Flows stream port stream' port'
  pending : result = .pending → Changed stream port stream' port' ∨ Same stream port stream' port'
  done : result = .ready (.ok ()) → stream' = .completed ∧ Changed stream port stream' port'
  progress : result = .pending → port.Served → port.incoming ≠ [] ∨ port.remoteDropped = true →
    Changed stream port stream' port'

section

variable (io : LengthDelimited) (header : Option HeaderLine) (protocol : Protocol)

theorem pollTurn_flows [UnsignedVarint] (port : Port) :
    (∃ io' port', pollTurn (.expecting io header protocol, port) = .next (.expecting io' none protocol, port') ∧
      Took io port io' port') ∨
    ∃ res stream' port', pollTurn (.expecting io header protocol, port) = .stop (res, stream', port') ∧
      Confirms (.expecting io header protocol) port res stream' port' := by
  have hf : ∀ (error : NegotiationError) {io' : LengthDelimited} {port' : Port},
      port' = { port with incoming := port'.incoming, answers := port'.answers } →
      io'.writeBuffer = io.writeBuffer → (∃ taken, port.incoming = taken ++ port'.incoming) →
      Confirms (.expecting io header protocol) port (.ready (.error error)) .invalid port' :=
    fun _ _ _ hp hb hs => ⟨.of_reads hp hb hs (.inl rfl), nofun, nofun, nofun⟩
  unfold pollTurn
  dsimp only
  have hr := pollStream_reads io port
  generalize pollStream io port = output at hr ⊢
  cases hr with
  | idle ha hse =>
    refine .inr ⟨_, _, _, rfl, .refl _ _ _, fun _ => .inr ⟨rfl, rfl⟩, nofun, fun _ hre hby => ?_⟩
    obtain ⟨he, ho⟩ := hse hre
    rcases hby with hby | hd
    · exact absurd he hby
    · rw [ho] at hd
      cases hd
  | partly ht =>
    exact .inr ⟨_, _, _, rfl, .of_reads ht.port_eq ht.writeBuffer ht.suffix (.inr rfl),
      fun _ => .inl (.inr ht.shorter), nofun, fun _ _ _ => .inr ht.shorter⟩
  | ended hp hb hs ha hrs =>
    rename_i res io' port'
    match res with
    | none | some (.error error) => exact .inr ⟨_, _, _, rfl, hf _ hp hb hs⟩
    | some (.ok msg) => exact absurd rfl (hrs msg)
  | item ht =>
    rename_i msg io' port'
    have hf' := fun error => hf error ht.port_eq ht.writeBuffer ht.suffix
    match msg with
    | .header line =>
      dsimp only
      split
      · exact .inl ⟨io', port', rfl, ht⟩
      · exact .inr ⟨_, _, _, rfl, hf' _⟩
    | .protocol p =>
      dsimp only
      split
      · cases io'.intoInner with
        | ok =>
          exact .inr ⟨_, _, _, rfl, .of_reads ht.port_eq ht.writeBuffer ht.suffix (.inl rfl),
            nofun, fun _ => ⟨rfl, .inr ht.shorter⟩, nofun⟩
        | error => exact .inr ⟨_, _, _, rfl, hf' _⟩
      · exact .inr ⟨_, _, _, rfl, hf' _⟩
    | .notAvailable | .listProtocols | .protocols protos => exact .inr ⟨_, _, _, rfl, hf' _⟩

theorem confirm_confirms [UnsignedVarint] (port : Port) :
    Confirms (.expecting io header protocol) port (confirm (.expecting io header protocol) port).1
      (confirm (.expecting io header protocol) port).2.1 (confirm (.expecting io header protocol) port).2.2 := by
  unfold confirm
  refine loop_spec (fun st => ∃ io' header' port', st = (.expecting io' header' protocol, port') ∧
      (io' = io ∧ header' = header ∧ port' = port ∨ Took io port io' port'))
    (fun (out : _ × _ × _) => Confirms (.expecting io header protocol) port out.1 out.2.1 out.2.2)
    (fun st => st.2.answers.length) ?_ ⟨io, header, port, rfl, .inl ⟨rfl, rfl, rfl⟩⟩ (Nat.lt_succ_self _) _
  rintro st ⟨io', header', port', rfl, hs⟩
  rcases pollTurn_flows io' header' protocol port' with ⟨_, _, heq, hn⟩ | ⟨_, _, _, heq, hc⟩
  · rw [heq]
    refine ⟨⟨_, _, _, rfl, .inr ?_⟩, hn.answers⟩
    rcases hs with ⟨rfl, rfl, rfl⟩ | ht
    · exact hn
    · exact ht.trans hn
  · rw [heq]
    rcases hs with ⟨rfl, rfl, rfl⟩ | ht
    · exact hc
    -- the header was read before
    have hf : Flows (.expecting io header protocol) port (.expecting io' header' protocol) port' :=
      .of_reads ht.port_eq ht.writeBuffer ht.suffix (.inr rfl)
    have hr : Changed (.expecting io header protocol) port (.expecting io' header' protocol) port' :=
      .inr ht.shorter
    have hch := hc.flows.changed_left hr
    exact ⟨hf.trans hc.flows, fun _ => .inl hch, fun hd => ⟨(hc.done hd).1, hch⟩, fun _ _ _ => hch⟩

end

/-- Nothing to move and nothing to read. -/
def Stuck (stream : Negotiated) (port : Port) : Prop :=
  port.incoming = [] ∧ (stream = .completed ∨
    stream.buffer = [] ∧ port.held = [] ∧ port.remoteDropped = false ∧ stream ≠ .invalid)

/-- The first two calls are ready: to flush and to read. -/
def Served (port : Port) : Prop := ∃ first second answers, port.answers = .ready first :: .ready second :: answers

/-- What a poll, or a read, comes to, apart from what it returns. -/
structure Advances (stream : Negotiated) (port : Port) (failed ready : Prop) (stream' : Negotiated)
    (port' : Port) : Prop where
  flows : Flows stream port stream' port'
  moved : ¬ failed → Changed stream port stream' port' ∨ Same stream port stream' port'
  progress : ¬ failed → ready → ¬ Stuck stream port → Changed stream port stream' port'

theorem Served.first (hs : Served port) : port.Served := by
  obtain ⟨first, _, _, ha⟩ := hs
  exact ⟨first, _, ha⟩

theorem served_of_flush (he : io.writeBuffer = []) (hs : Served port) : (io.pollFlush port).2.2.Served := by
  obtain ⟨_, second, ans, ha⟩ := hs
  rw [pollFlush_of_empty port he]
  unfold Port.pollFlush
  rw [ha]
  exact ⟨second, ans, rfl⟩

theorem advances_of_flush {res : Poll (Except IoError Unit)} {confirmed : Poll (Except NegotiationError Unit)}
    (hf : io.pollFlush port = (res, io', port'))
    (hc : Confirms (.expecting io' header protocol) port' confirmed stream'' port'') :
    Advances (.expecting io header protocol) port (∃ err, confirmed = .ready (.error err)) (Served port)
      stream'' port'' := by
  obtain ⟨_, _, _, heq, hw, hfl⟩ := io.pollFlush_writes port
  cases heq.symm.trans hf
  have hfo : Flows (.expecting io header protocol) port (.expecting io' header protocol) port' :=
    .of_sends hw.sends header protocol
  have hca : (¬ ∃ err, confirmed = .ready (.error err)) →
      confirmed = .pending ∨ Changed (.expecting io header protocol) port stream'' port'' := by
    intro hfi
    match confirmed with
    | .pending => exact .inl rfl
    | .ready (.ok ()) => exact .inr (hfo.changed_right (hc.done rfl).2)
    | .ready (.error err) => exact absurd ⟨err, rfl⟩ hfi
  refine ⟨hfo.trans hc.flows, fun hfi => ?_, fun hfi hs hst => ?_⟩
  · rcases hca hfi with hp | hch
    · rcases hc.pending hp with hch | ⟨hsr, hpo⟩
      · exact .inl (hfo.changed_right hch)
      · rcases hw.sends.moved with hl | ⟨rfl, hsa⟩
        · exact .inl (hc.flows.changed_left (.inl hl))
        · exact .inr ⟨hsr, by rw [hpo, hsa]⟩
    · exact .inl hch
  · rcases hca hfi with hp | hch
    · rcases hw.sends.moved with hl | ⟨rfl, hsa⟩
      · exact hc.flows.changed_left (.inl hl)
      by_cases hd : res = .ready (.ok ())
      · obtain ⟨hb, hh, -⟩ := hfl hd
        have hr := served_of_flush hb hs
        rw [hf] at hr
        refine hfo.changed_right (hc.progress hp hr ?_)
        rw [hsa] at hh ⊢
        by_contra hn
        rw [not_or, not_not, Bool.not_eq_true] at hn
        exact hst ⟨hn.1, .inr ⟨hb, hh, hn.2, nofun⟩⟩
      · exact hc.flows.changed_left (.inl (hw.progress hd hs.first))
    · exact hch

theorem poll_advances [UnsignedVarint] (io : LengthDelimited) (header : Option HeaderLine) (protocol : Protocol)
    (port : Port) :
    ∃ res stream' port', poll (.expecting io header protocol) port = (res, stream', port') ∧
      Advances (.expecting io header protocol) port (∃ err, res = .ready (.error err)) (Served port) stream' port' ∧
      (res = .ready (.ok ()) → stream' = .completed ∧
        Changed (.expecting io header protocol) port stream' port') := by
  obtain ⟨res, io', port', hf, hw, -⟩ := io.pollFlush_writes port
  have hfl : Flows (.expecting io header protocol) port (.expecting io' header protocol) port' :=
    .of_sends hw.sends header protocol
  have hc := confirm_confirms io' header protocol port'
  have ha := advances_of_flush hf hc
  have hd := fun hok => And.intro (hc.done hok).1 (hfl.changed_right (hc.done hok).2)
  unfold poll pollFlush
  dsimp only
  rw [hf]
  match res with
  | .pending =>
    refine ⟨_, _, _, rfl, ⟨hfl, fun _ => moved_of_sends hw.sends, fun _ hs _ => ?_⟩, nofun⟩
    exact .inl (hw.progress nofun hs.first)
  | .ready (.ok ()) => exact ⟨_, _, _, rfl, ha, hd⟩
  | .ready (.error err) =>
    cases err with
    | writeZero => exact ⟨_, _, _, rfl, ha, hd⟩
    | _ => exact ⟨_, _, _, rfl, ⟨hfl, fun h => absurd ⟨_, rfl⟩ h, fun h => absurd ⟨_, rfl⟩ h⟩, nofun⟩

theorem pollRead_completed (port : Port) (len : Nat) : ∃ res port', port.pollRead len = (res, port') ∧
      Advances .completed port (∃ err, res = .ready (.error err)) (Served port ∧ 0 < len) .completed port' ∧
      ∀ bs, res = .ready (.ok bs) → bs ≠ [] → Changed .completed port .completed port' := by
  rcases port.pollRead_cases len with
    ⟨answers, heq, -, hs⟩ | ⟨answers, heq, -, he⟩ | ⟨byte, bs, rest, answers, heq, -, hsp, -⟩
  · refine ⟨_, _, heq, ⟨.refl _ _ _, fun _ => .inr ⟨rfl, rfl⟩, fun _ hr hst => ?_⟩, nofun⟩
    exact absurd ⟨(hs hr.1.first).1, .inl rfl⟩ hst
  · refine ⟨_, _, heq, ⟨.refl _ _ _, fun _ => .inr ⟨rfl, rfl⟩, fun _ hr hst => ?_⟩, ?_⟩
    · exact absurd ⟨(he hr.2).1, .inl rfl⟩ hst
    · rintro bs hb hne
      cases hb
      exact absurd rfl hne
  · have hc : Changed .completed port .completed { port with incoming := rest, answers } := by
      right
      rw [hsp, length_append, length_cons]
      show rest.length < _
      omega
    exact ⟨_, _, heq, ⟨⟨Nat.le_refl _, ⟨_, hsp⟩, rfl⟩, fun _ => .inl hc, fun _ _ _ => hc⟩, fun _ _ _ => hc⟩

/-- What a read makes of a poll: an error is passed on, and a stream that is complete is read from. -/
def readAfter (len : Nat) (stream' : Negotiated) (port' : Port) :
    Poll (Except NegotiationError Unit) → Poll (Except IoError (List UInt8)) × Negotiated × Port
  | .pending => (.pending, stream', port')
  | .ready (.error error) => (.ready (.error error.toIoError), stream', port')
  | .ready (.ok ()) => ((port'.pollRead len).1, .completed, (port'.pollRead len).2)

theorem pollRead_expecting [UnsignedVarint] {result : Poll (Except NegotiationError Unit)}
    (heq : poll (.expecting io header protocol) port = (result, stream', port'))
    (hd : result = .ready (.ok ()) → stream' = .completed) (len : Nat) :
    pollRead (.expecting io header protocol) port len = readAfter len stream' port' result := by
  unfold pollRead loop readTurn
  dsimp only
  rw [heq]
  cases result with
  | pending => rfl
  | ready ans =>
    cases ans with
    | error => rfl
    | ok =>
      cases hd rfl
      rfl

theorem pollRead_advances [UnsignedVarint] (stream : Negotiated) (port : Port) (len : Nat) :
    ∃ res stream' port', stream.pollRead port len = (res, stream', port') ∧
      Advances stream port (∃ err, res = .ready (.error err)) (Served port ∧ 0 < len) stream' port' ∧
      ∀ bs, res = .ready (.ok bs) → bs ≠ [] → Changed stream port stream' port' := by
  cases stream with
  | completed =>
    obtain ⟨res, port', heq, ha, hb⟩ := pollRead_completed port len
    refine ⟨res, .completed, port', ?_, ha, hb⟩
    show ((port.pollRead len).1, Negotiated.completed, (port.pollRead len).2) = _
    rw [heq]
  | invalid =>
    refine ⟨_, _, _, rfl, ⟨.refl _ _ port.answers, fun h => absurd ⟨_, rfl⟩ h, fun h => absurd ⟨_, rfl⟩ h⟩, nofun⟩
  | expecting io header protocol =>
    obtain ⟨res, _, port', heq, ha, hd⟩ := poll_advances io header protocol port
    rw [pollRead_expecting heq fun h => (hd h).1]
    match res with
    | .pending =>
      exact ⟨_, _, _, rfl, ⟨ha.flows, fun _ => ha.moved nofun, fun _ hr => ha.progress nofun hr.1⟩, nofun⟩
    | .ready (.error err) =>
      exact ⟨_, _, _, rfl, ⟨ha.flows, fun h => absurd ⟨_, rfl⟩ h, fun h => absurd ⟨_, rfl⟩ h⟩, nofun⟩
    | .ready (.ok ()) =>
      obtain ⟨rfl, hc⟩ := hd rfl
      obtain ⟨res, _, hre, hn, -⟩ := pollRead_completed port' len
      have hl := hn.flows.changed_left hc
      unfold readAfter
      rw [hre]
      exact ⟨_, _, _, rfl, ⟨ha.flows.trans hn.flows, fun _ => .inl hl, fun _ _ _ => hl⟩, fun _ _ _ => hl⟩

end Negotiated
end RustLibp2p.Multistream
