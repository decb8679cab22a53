import RustLibp2p.KadBucket
import RustLibp2p.OrdMap

/-! The iterator that drives a query towards the peers closest to a target. It hands out the closest peer
not yet contacted while it may wait for further results. Peers are identified by `P`, which has the key
its hash gives it. -/

namespace RustLibp2p.Kad

/-- The number of results searched for by default, and of peers a query starts with at most. -/
def kValue : Nat := 20

inductive PeerState where
  | notContacted
  | waiting (timeout : Instant)
  | unresponsive
  | failed
  | succeeded
  deriving DecidableEq

structure Peer (P : Type) where
  key : P
  state : PeerState

inductive ClosestPeersIter.State where
  | iterating (noProgress : Nat)
  | stalled
  | finished
  deriving DecidableEq

/-- Both numbers are of type `NonZeroUsize`. -/
structure ClosestPeersIterConfig where
  parallelism : Nat
  parallelism_pos : 0 < parallelism
  numResults : Nat
  numResults_pos : 0 < numResults
  peerTimeout : Nat

structure ClosestPeersIter (P : Type) where
  config : ClosestPeersIterConfig
  target : KeyBytes
  state : ClosestPeersIter.State
  closestPeers : OrdMap Distance (Peer P)
  numWaiting : Nat

inductive PeersIterState (P : Type) where
  | waiting (peer : Option P)
  | waitingAtCapacity
  | finished
  deriving DecidableEq

/-- `num_waiting -= 1` on a `usize`. -/
def wrappingPred (n : Nat) : Nat := if n = 0 then 2 ^ 64 - 1 else n - 1

namespace ClosestPeersIter

variable {P : Type} [AsKeyBytes P]

def withConfig (config : ClosestPeersIterConfig) (target : KeyBytes) (knownClosestPeers : List P) :
    ClosestPeersIter P where
  config := config
  target := target
  state := .iterating 0
  closestPeers := .ofList ((knownClosestPeers.map fun key =>
    ((keyBytes key).distance target, ⟨key, .notContacted⟩)).take kValue)
  numWaiting := 0

section

variable (it : ClosestPeersIter P) (peer : P)

/-- What `on_success` and `on_failure` begin with: a peer whose answer is still awaited, possibly after
its time was up, gets its final state. -/
def deliver (result : PeerState) : Option (ClosestPeersIter P) :=
  let distance := (keyBytes peer).distance it.target
  match it.closestPeers.get? distance with
  | none => none
  | some entry =>
    let closestPeers := it.closestPeers.adjust distance fun entry => { entry with state := result }
    match entry.state with
    | .waiting _ => some { it with numWaiting := wrappingPred it.numWaiting, closestPeers := closestPeers }
    | .unresponsive => some { it with closestPeers := closestPeers }
    | .notContacted => none
    | .failed => none
    | .succeeded => none

/-- The distance of the last peer within the number of results, or of the last one at all. -/
def curRange (distance : Distance) : Distance :=
  match it.closestPeers.entries[it.config.numResults - 1]?.or it.closestPeers.entries.getLast? with
  | some entry => entry.1
  | none => distance

/-- Takes up one of the reported peers; a new one inside the range is progress. -/
def incorporate (target : KeyBytes) (curRange : Distance) (acc : OrdMap Distance (Peer P) × Bool) (key : P) :
    OrdMap Distance (Peer P) × Bool :=
  let distance := target.distance (keyBytes key)
  match acc.1.get? distance with
  | some _ => acc
  | none => (acc.1.insert distance ⟨key, .notContacted⟩, decide (distance < curRange) || acc.2)

/-- The state after a result that brought progress or did not. -/
def State.advance (config : ClosestPeersIterConfig) (progress : Bool) : State → State
  | .iterating noProgress =>
    let noProgress := if progress then 0 else noProgress + 1
    if config.parallelism ≤ noProgress then .stalled else .iterating noProgress
  | .stalled => if progress then .iterating 0 else .stalled
  | .finished => .finished

def onSuccess (closerPeers : List P) : Bool × ClosestPeersIter P :=
  if it.state = .finished then (false, it)
  else
    match it.deliver peer .succeeded with
    | none => (false, it)
    | some it =>
      let curRange := it.curRange ((keyBytes peer).distance it.target)
      let progress : Bool := it.closestPeers.entries.length < it.config.numResults
      let (closestPeers, progress) := closerPeers.foldl (incorporate it.target curRange) (it.closestPeers, progress)
      (true, { it with closestPeers := closestPeers, state := it.state.advance it.config progress })

def onFailure : Bool × ClosestPeersIter P :=
  if it.state = .finished then (false, it)
  else
    match it.deliver peer .failed with
    | none => (false, it)
    | some it => (true, it)

def atCapacity : Bool :=
  match it.state with
  | .stalled => max it.config.numResults it.config.parallelism ≤ it.numWaiting
  | .iterating _ => it.config.parallelism ≤ it.numWaiting
  | .finished => true

end

/-- How the loop over the peers in `next` ends. -/
inductive ScanEnd (P : Type) where
  | yielded (peer : P)
  | atCapacity
  | enoughResults
  | exhausted

/-- One turn of the loop over the peers in `next`: the peer afterwards, `num_waiting`, and how the loop
ends or the counter of results with which it goes on. -/
structure Turn (P : Type) where
  peer : Peer P
  numWaiting : Nat
  next : ScanEnd P ⊕ Option Nat

def turn (config : ClosestPeersIterConfig) (now : Instant) (atCapacity : Bool) (resultCounter : Option Nat)
    (numWaiting : Nat) (peer : Peer P) : Turn P :=
  match peer.state with
  | .waiting timeout =>
    if timeout ≤ now then
      ⟨{ peer with state := .unresponsive }, wrappingPred numWaiting, .inr resultCounter⟩
    else if atCapacity then ⟨peer, numWaiting, .inl .atCapacity⟩
    else ⟨peer, numWaiting, .inr none⟩
  | .succeeded =>
    match resultCounter with
    | some count =>
      if config.numResults ≤ count + 1 then ⟨peer, numWaiting, .inl .enoughResults⟩
      else ⟨peer, numWaiting, .inr (some (count + 1))⟩
    | none => ⟨peer, numWaiting, .inr none⟩
  | .notContacted =>
    if atCapacity then ⟨peer, numWaiting, .inl .atCapacity⟩
    else ⟨{ peer with state := .waiting (now + config.peerTimeout) }, numWaiting + 1, .inl (.yielded peer.key)⟩
  | .unresponsive | .failed => ⟨peer, numWaiting, .inr resultCounter⟩

def scan (config : ClosestPeersIterConfig) (now : Instant) (atCapacity : Bool) :
    Option Nat → Nat → List (Distance × Peer P) → List (Distance × Peer P) × Nat × ScanEnd P
  | _, numWaiting, [] => ([], numWaiting, .exhausted)
  | resultCounter, numWaiting, (distance, peer) :: rest =>
    let t := turn config now atCapacity resultCounter numWaiting peer
    match t.next with
    | .inl scanEnd => ((distance, t.peer) :: rest, t.numWaiting, scanEnd)
    | .inr resultCounter =>
      let later := scan config now atCapacity resultCounter t.numWaiting rest
      ((distance, t.peer) :: later.1, later.2)

omit [AsKeyBytes P] in
theorem scan_keys (config : ClosestPeersIterConfig) (now : Instant) (atCapacity : Bool)
    (resultCounter : Option Nat) (numWaiting : Nat) (entries : List (Distance × Peer P)) :
    (scan config now atCapacity resultCounter numWaiting entries).1.map Prod.fst = entries.map Prod.fst := by
  induction entries generalizing resultCounter numWaiting with
  | nil => rfl
  | cons e rest ih =>
    rw [scan]
    split
    · rfl
    · exact congrArg (e.1 :: ·) (ih _ _)

section

variable (it : ClosestPeersIter P)

def next (now : Instant) : PeersIterState P × ClosestPeersIter P :=
  if it.state = .finished then (.finished, it)
  else
    let result := scan it.config now it.atCapacity (some 0) it.numWaiting it.closestPeers.entries
    let it := { it with
      closestPeers := it.closestPeers.withEntries result.1 (scan_keys ..), numWaiting := result.2.1 }
    match result.2.2 with
    | .yielded peer => (.waiting (some peer), it)
    | .atCapacity => (.waitingAtCapacity, it)
    | .enoughResults => (.finished, { it with state := .finished })
    | .exhausted => if 0 < it.numWaiting then (.waiting none, it) else (.finished, { it with state := .finished })

def finish : ClosestPeersIter P := { it with state := .finished }

def isFinished : Bool := it.state = .finished

def waiting (it : ClosestPeersIter P) : List P :=
  it.closestPeers.entries.filterMap fun entry =>
    match entry.2.state with
    | .waiting _ => some entry.2.key
    | _ => none

def succeeded (it : ClosestPeersIter P) : List P :=
  it.closestPeers.entries.filterMap fun entry =>
    if entry.2.state = .succeeded then some entry.2.key else none

def intoResult : List P := it.succeeded.take it.config.numResults

end
end ClosestPeersIter

inductive IterCall (P : Type) where
  | next (now : Instant)
  | onSuccess (peer : P) (closerPeers : List P)
  | onFailure (peer : P)

inductive IterOutput (P : Type) where
  | polled (state : PeersIterState P)
  | updated (updated : Bool)

def ClosestPeersIter.exec {P : Type} [AsKeyBytes P] (it : ClosestPeersIter P) :
    IterCall P → IterOutput P × ClosestPeersIter P
  | .next now => (it.next now).map .polled id
  | .onSuccess peer closerPeers => (it.onSuccess peer closerPeers).map .updated id
  | .onFailure peer => (it.onFailure peer).map .updated id

/-! The loop over the peers in `next` of the query towards the closest peers: what one turn can do, and
from that what the loop leaves behind, by how it ends. -/
open List

namespace PeerState

def isWaiting : PeerState → Bool
  | .waiting _ => true
  | _ => false

/-- Nothing more is expected of the peer. -/
def isFinal : PeerState → Bool
  | .succeeded | .failed | .unresponsive => true
  | _ => false

end PeerState

namespace ClosestPeersIter

variable {P : Type}

section

variable (entries : List (Distance × Peer P))

def waitingCount : Nat := entries.countP fun entry => entry.2.state.isWaiting

def succeededCount : Nat := entries.countP fun entry => entry.2.state = .succeeded

def notContactedCount : Nat := entries.countP fun entry => entry.2.state = .notContacted

end

section

variable (distance : Distance) (peer : Peer P) (rest : List (Distance × Peer P))

theorem waitingCount_cons :
    waitingCount ((distance, peer) :: rest) = waitingCount rest + peer.state.isWaiting.toNat := by
  rw [waitingCount, countP_cons]
  cases peer.state.isWaiting <;> rfl

theorem succeededCount_cons :
    succeededCount ((distance, peer) :: rest) = succeededCount rest + (decide (peer.state = .succeeded)).toNat := by
  rw [succeededCount, countP_cons]
  cases decide (peer.state = .succeeded) <;> rfl

end

/-! ### The loop over the peers -/

/-- All that a turn of the loop can do with a peer. -/
inductive TurnCase (config : ClosestPeersIterConfig) (now : Instant) (atCapacity : Bool) (numWaiting : Nat) :
    Option Nat → Peer P → Turn P → Prop where
  | expired (counter : Option Nat) (key : P) (timeout : Instant) :
      TurnCase config now atCapacity numWaiting counter ⟨key, .waiting timeout⟩
        ⟨⟨key, .unresponsive⟩, wrappingPred numWaiting, .inr counter⟩
  | full (counter : Option Nat) (peer : Peer P) :
      TurnCase config now atCapacity numWaiting counter peer ⟨peer, numWaiting, .inl .atCapacity⟩
  | awaited (counter : Option Nat) (key : P) (timeout : Instant) :
      TurnCase config now atCapacity numWaiting counter ⟨key, .waiting timeout⟩
        ⟨⟨key, .waiting timeout⟩, numWaiting, .inr none⟩
  | enough (count : Nat) (key : P) (hcount : config.numResults ≤ count + 1) :
      TurnCase config now atCapacity numWaiting (some count) ⟨key, .succeeded⟩
        ⟨⟨key, .succeeded⟩, numWaiting, .inl .enoughResults⟩
  | counted (count : Nat) (key : P) (hcount : count + 1 < config.numResults) :
      TurnCase config now atCapacity numWaiting (some count) ⟨key, .succeeded⟩
        ⟨⟨key, .succeeded⟩, numWaiting, .inr (some (count + 1))⟩
  | uncounted (key : P) : TurnCase config now atCapacity numWaiting none ⟨key, .succeeded⟩
        ⟨⟨key, .succeeded⟩, numWaiting, .inr none⟩
  | contacted (counter : Option Nat) (key : P) (hcapacity : atCapacity = false) :
      TurnCase config now atCapacity numWaiting counter ⟨key, .notContacted⟩
        ⟨⟨key, .waiting (now + config.peerTimeout)⟩, numWaiting + 1, .inl (.yielded key)⟩
  | skipped (counter : Option Nat) (peer : Peer P) (hstate : peer.state = .unresponsive ∨ peer.state = .failed) :
      TurnCase config now atCapacity numWaiting counter peer ⟨peer, numWaiting, .inr counter⟩

theorem turnCase (config : ClosestPeersIterConfig) (now : Instant) (atCapacity : Bool) (counter : Option Nat)
    (numWaiting : Nat) (peer : Peer P) :
    TurnCase config now atCapacity numWaiting counter peer (turn config now atCapacity counter numWaiting peer) := by
  obtain ⟨key, st⟩ := peer
  unfold turn
  cases st with
  | waiting timeout =>
    simp only
    split_ifs
    · exact .expired counter key timeout
    · exact .full counter _
    · exact .awaited counter key timeout
  | succeeded =>
    cases counter with
    | none => exact .uncounted key
    | some count =>
      simp only
      split_ifs with hc
      · exact .enough count key hc
      · exact .counted count key (Nat.not_le.1 hc)
  | notContacted =>
    split_ifs with hca
    · exact .full counter _
    · exact .contacted counter key (Bool.not_eq_true _ ▸ hca)
  | unresponsive => exact .skipped counter _ (.inl rfl)
  | failed => exact .skipped counter _ (.inr rfl)

/-- All that the loop can do with a list of peers. -/
inductive Scanned (config : ClosestPeersIterConfig) (now : Instant) (atCapacity : Bool) :
    Option Nat → Nat → List (Distance × Peer P) → List (Distance × Peer P) × Nat × ScanEnd P → Prop where
  | nil (counter : Option Nat) (numWaiting : Nat) :
      Scanned config now atCapacity counter numWaiting [] ([], numWaiting, .exhausted)
  | stop {counter : Option Nat} {numWaiting numWaiting' : Nat} {peer peer' : Peer P} {scanEnd : ScanEnd P}
      (hturn : TurnCase config now atCapacity numWaiting counter peer ⟨peer', numWaiting', .inl scanEnd⟩)
      (distance : Distance) (rest : List (Distance × Peer P)) :
      Scanned config now atCapacity counter numWaiting ((distance, peer) :: rest)
        ((distance, peer') :: rest, numWaiting', scanEnd)
  | go {counter counter' : Option Nat} {numWaiting numWaiting' numWaiting'' : Nat} {peer peer' : Peer P}
      {rest rest' : List (Distance × Peer P)} {scanEnd : ScanEnd P}
      (hturn : TurnCase config now atCapacity numWaiting counter peer ⟨peer', numWaiting', .inr counter'⟩)
      (distance : Distance)
      (hrest : Scanned config now atCapacity counter' numWaiting' rest (rest', numWaiting'', scanEnd)) :
      Scanned config now atCapacity counter numWaiting ((distance, peer) :: rest)
        ((distance, peer') :: rest', numWaiting'', scanEnd)

theorem scanned (config : ClosestPeersIterConfig) (now : Instant) (atCapacity : Bool) (counter : Option Nat)
    (numWaiting : Nat) (entries : List (Distance × Peer P)) : Scanned config now atCapacity counter numWaiting entries
      (scan config now atCapacity counter numWaiting entries) := by
  induction entries generalizing counter numWaiting with
  | nil => exact .nil counter numWaiting
  | cons e rest ih =>
    obtain ⟨distance, peer⟩ := e
    have ht := turnCase config now atCapacity counter numWaiting peer
    rw [scan]
    generalize turn config now atCapacity counter numWaiting peer = t at ht ⊢
    obtain ⟨_, numWaiting', _ | counter'⟩ := t
    · exact .stop ht distance rest
    · exact .go ht distance (ih counter' numWaiting')

variable {config : ClosestPeersIterConfig} {now : Instant} {atCapacity : Bool} {counter : Option Nat}
  {numWaiting : Nat} {entries : List (Distance × Peer P)}
  {result : List (Distance × Peer P) × Nat × ScanEnd P}

theorem Scanned.peers (hscan : Scanned config now atCapacity counter numWaiting entries result) :
    result.1.map (fun e => (e.1, e.2.key)) = entries.map (fun e => (e.1, e.2.key)) := by
  induction hscan with
  | nil => rfl
  | stop ht => cases ht <;> rfl
  | go ht distance hr ih =>
    simp only [map_cons, ih]
    cases ht <;> rfl

variable {peer : Peer P}

theorem TurnCase.numWaiting_eq {t : Turn P}
    (ht : TurnCase config now atCapacity numWaiting counter peer t) {others : Nat}
    (hc : numWaiting = others + peer.state.isWaiting.toNat) :
    t.numWaiting = others + t.peer.state.isWaiting.toNat := by
  cases ht with
  | expired =>
    have hpos : numWaiting = others + 1 := hc
    rw [hpos]
    rfl
  | contacted =>
    have hs : numWaiting = others := hc
    rw [hs]
    rfl
  | _ => exact hc

section

variable (hscan : Scanned config now atCapacity counter numWaiting entries result)
include hscan

variable {others : Nat} {distance : Distance} {key : P}

theorem Scanned.numWaiting_eq
    (hc : numWaiting = others + waitingCount entries) : result.2.1 = others + waitingCount result.1 := by
  induction hscan generalizing others with
  | nil => exact hc
  | stop ht =>
    rw [waitingCount_cons, ← Nat.add_assoc] at hc ⊢
    exact ht.numWaiting_eq hc
  | go ht distance hr ih =>
    rw [waitingCount_cons, ← Nat.add_assoc] at hc
    have ht := ht.numWaiting_eq hc
    rw [waitingCount_cons, Nat.add_comm (waitingCount _), ← Nat.add_assoc]
    exact ih (ht.trans (Nat.add_right_comm _ _ _))

theorem Scanned.numWaiting_le
    (hc : numWaiting = others + waitingCount entries) : result.2.1 ≤ numWaiting + (!atCapacity).toNat := by
  induction hscan generalizing others with
  | nil => exact Nat.le_add_right _ _
  | stop ht =>
    cases ht with
    | contacted counter key hca =>
      rw [hca]
      rfl
    | _ => exact Nat.le_add_right _ _
  | go ht distance hr ih =>
    rw [waitingCount_cons, ← Nat.add_assoc] at hc
    have hn := ht.numWaiting_eq hc
    rw [Nat.add_right_comm] at hn
    refine (ih hn).trans (Nat.add_le_add_right ?_ _)
    cases ht with
    | expired =>
      rw [hc]
      exact Nat.le_succ _
    | _ => exact Nat.le_refl _

theorem Scanned.contacted (hmem : (distance, peer) ∈ entries) (hs : peer.state ≠ .notContacted) :
    ∃ st, st ≠ .notContacted ∧ (distance, ⟨peer.key, st⟩) ∈ result.1 := by
  have ht : ∀ {counter numWaiting t} rest, TurnCase config now atCapacity numWaiting counter peer t →
      ∃ st, st ≠ .notContacted ∧ (distance, ⟨peer.key, st⟩) ∈ (distance, t.peer) :: rest := by
    intro counter numWaiting t rest htu
    cases htu with
    | contacted => exact absurd rfl hs
    | expired => exact ⟨.unresponsive, nofun, mem_cons_self⟩
    | _ => exact ⟨_, hs, mem_cons_self⟩
  induction hscan with
  | nil => cases hmem
  | stop htu d rest =>
    rcases mem_cons.1 hmem with heq | hmem
    · cases heq
      exact ht rest htu
    · exact ⟨peer.state, hs, mem_cons_of_mem _ hmem⟩
  | go htu d hr ih =>
    rcases mem_cons.1 hmem with heq | hmem
    · cases heq
      exact ht _ htu
    · obtain ⟨st, hc, hmem⟩ := ih hmem
      exact ⟨st, hc, mem_cons_of_mem _ hmem⟩

theorem Scanned.yielded (he : result.2.2 = .yielded key) : ∃ distance, (distance, ⟨key, .notContacted⟩) ∈ entries ∧
      (distance, ⟨key, .waiting (now + config.peerTimeout)⟩) ∈ result.1 := by
  induction hscan with
  | nil => cases he
  | stop ht distance =>
    cases ht with
    | full | enough => cases he
    | contacted =>
      cases he
      exact ⟨distance, mem_cons_self, mem_cons_self⟩
  | go ht distance hr ih =>
    obtain ⟨d, ho, hn⟩ := ih he
    exact ⟨d, mem_cons_of_mem _ ho, mem_cons_of_mem _ hn⟩

theorem Scanned.notContactedCount_lt
    (he : result.2.2 = .yielded key) : notContactedCount result.1 < notContactedCount entries := by
  induction hscan with
  | nil => cases he
  | stop ht =>
    cases ht with
    | full | enough => cases he
    | contacted => simp [notContactedCount]
  | @go _ _ _ _ _ peer peer' rest rest' _ ht distance hr ih =>
    have hs : (peer'.state = .notContacted) = (peer.state = .notContacted) := by cases ht <;> simp
    have hr : notContactedCount rest' < notContactedCount rest := ih he
    simp only [notContactedCount, countP_cons, hs]
    exact Nat.add_lt_add_right hr _

theorem Scanned.waiting {timeout : Instant} (hmem : (distance, ⟨key, .waiting timeout⟩) ∈ result.1) :
    (distance, ⟨key, .waiting timeout⟩) ∈ entries ∨ result.2.2 = .yielded key := by
  induction hscan with
  | nil => exact .inl hmem
  | stop ht =>
    rcases mem_cons.1 hmem with heq | hmem
    · cases heq
      cases ht with
      | full => exact .inl mem_cons_self
      | contacted => exact .inr rfl
    · exact .inl (mem_cons_of_mem _ hmem)
  | go ht d hr ih =>
    rcases mem_cons.1 hmem with heq | hmem
    · cases heq
      cases ht with
      | awaited => exact .inl mem_cons_self
      | skipped _ _ hs => rcases hs with hs | hs <;> cases hs
    · exact (ih hmem).imp_left (mem_cons_of_mem _)

end

theorem TurnCase.counted_of_go {peer peer' : Peer P} {numWaiting' count' : Nat}
    (ht : TurnCase config now atCapacity numWaiting counter peer ⟨peer', numWaiting', .inr (some count')⟩) :
    peer'.state.isFinal ∧ ∃ count, counter = some count ∧ count' = count + (decide (peer'.state = .succeeded)).toNat ∧
      (count < config.numResults → count' < config.numResults) := by
  cases ht with
  | expired => exact ⟨rfl, count', rfl, rfl, id⟩
  | counted count key hc => exact ⟨rfl, count, rfl, rfl, fun _ => hc⟩
  | skipped _ _ hs => rcases hs with hs | hs <;> rw [hs] <;> exact ⟨rfl, count', rfl, rfl, id⟩

section

variable (hscan : Scanned config now atCapacity counter numWaiting entries result)
include hscan

theorem Scanned.enough (he : result.2.2 = .enoughResults) : ∃ count pre distance key after, counter = some count ∧
      result.1 = pre ++ (distance, ⟨key, .succeeded⟩) :: after ∧
      (∀ e ∈ pre, e.2.state.isFinal) ∧
      (count < config.numResults → count + succeededCount pre + 1 = config.numResults) := by
  induction hscan with
  | nil => cases he
  | stop ht distance rest =>
    cases ht with
    | full | contacted => cases he
    | enough count key hc =>
      refine ⟨count, [], distance, key, rest, rfl, rfl, by simp, fun hlt => ?_⟩
      exact le_antisymm hlt hc
  | @go _ counter' _ _ _ _ peer' _ _ _ ht distance hr ih =>
    obtain ⟨_, pre, d, key, after, rfl, hs, hf, hc'⟩ := ih he
    obtain ⟨hp, count, rfl, rfl, hlt⟩ := ht.counted_of_go
    refine ⟨count, (distance, peer') :: pre, d, key, after, rfl, congrArg _ hs, ?_, fun h => ?_⟩
    · exact forall_mem_cons.2 ⟨hp, hf⟩
    · rw [succeededCount_cons, ← hc' (hlt h)]
      omega

theorem Scanned.exhausted (he : result.2.2 = .exhausted) (hn : waitingCount result.1 = 0) {count : Nat}
    (hc : counter = some count) (hlt : count < config.numResults) :
    count + succeededCount result.1 < config.numResults := by
  induction hscan generalizing count with
  | nil => exact hlt
  | stop ht => cases ht <;> cases he
  | @go _ counter' _ _ _ _ peer' _ rest' _ ht distance hr ih =>
    rw [waitingCount_cons, Nat.add_eq_zero_iff] at hn
    cases counter' with
    | none =>
      cases ht with
      | awaited => cases hn.2
      | _ => cases hc
    | some =>
      obtain ⟨-, count, rfl, rfl, hlt'⟩ := ht.counted_of_go
      cases hc
      calc count + succeededCount ((distance, peer') :: rest')
          = count + (decide (peer'.state = .succeeded)).toNat + succeededCount rest' := by
            rw [succeededCount_cons, Nat.add_comm (succeededCount rest'), Nat.add_assoc]
        _ < config.numResults := ih he hn.1 rfl (hlt' hlt)

end
end ClosestPeersIter
end RustLibp2p.Kad
