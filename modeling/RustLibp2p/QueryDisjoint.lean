import Mathlib.Data.List.FinRange
import RustLibp2p.QueryClosestRun

/-! Queries along disjoint paths: one iterator towards the closest peers per path, polled in turn. The
path that hands out a peer first alone learns the closer peers it reports; the other paths are only told
whether it could be reached. -/

namespace RustLibp2p.Kad

namespace ClosestDisjointPeersIter

inductive ResponseState where
  | waiting
  | succeeded
  | failed
  deriving DecidableEq

/-- The path that contacted a peer, and what is known of the response. -/
structure PeerState (n : Nat) where
  initiatedBy : Fin n
  response : ResponseState

def PeerState.new {n : Nat} (initiatedBy : Fin n) : PeerState n := ⟨initiatedBy, .waiting⟩

end ClosestDisjointPeersIter

instance (config : ClosestPeersIterConfig) : NeZero config.parallelism := ⟨config.parallelism_pos.ne'⟩

inductive PathCall (P : Type) where
  | call (request : IterCall P)
  | finish

def PathCall.apply {P : Type} [AsKeyBytes P] (iter : ClosestPeersIter P) : PathCall P → ClosestPeersIter P
  | .call request => (iter.exec request).2
  | .finish => iter.finish

/-- `calls` is not part of the program: it keeps what was called on the iterator of each path. -/
@[ext]
structure ClosestDisjointPeersIter (P : Type) (n : Nat) where
  iters : Fin n → ClosestPeersIter P
  iterOrder : Fin n
  contactedPeers : P → Option (ClosestDisjointPeersIter.PeerState n)
  calls : Fin n → List (PathCall P)

/-- An `unreachable!` that is reached, or a loop that does not end. -/
inductive DisjointFault where
  | unreachable
  | endless
  deriving DecidableEq

namespace ClosestDisjointPeersIter

variable {P : Type} [AsKeyBytes P] [DecidableEq P]

def withConfig (config : ClosestPeersIterConfig) (target : KeyBytes) (knownClosestPeers : List P) :
    ClosestDisjointPeersIter P config.parallelism where
  iters := fun _ => .withConfig config target (knownClosestPeers.take kValue)
  iterOrder := ⟨0, config.parallelism_pos⟩
  contactedPeers := fun _ => none
  calls := fun _ => []

variable {n : Nat}

section

variable (s : ClosestDisjointPeersIter P n) (i : Fin n)

def onPath (call : PathCall P) : ClosestDisjointPeersIter P n :=
  { s with
    iters := Function.update s.iters i (call.apply (s.iters i))
    calls := Function.update s.calls i (s.calls i ++ [call]) }

def setContacted (peer : P) (state : PeerState n) : ClosestDisjointPeersIter P n :=
  { s with contactedPeers := Function.update s.contactedPeers peer (some state) }

/-- What `on_failure` and `on_success` do for a contacted peer: the path that contacted it gets the
response, the other paths get what they are told of it. -/
def report (peer : P) (state : PeerState n) (updated : Bool)
    (response : ResponseState) (call otherCall : IterCall P) : Bool × ClosestDisjointPeersIter P n :=
  let s := s.onPath state.initiatedBy (.call call)
  let s := if updated then s.setContacted peer { state with response := response } else s
  let others := (List.finRange n).filter fun i => i ≠ state.initiatedBy
  (updated, others.foldl (fun s i => s.onPath i (.call otherCall)) s)

def onFailure (s : ClosestDisjointPeersIter P n) (peer : P) : Bool × ClosestDisjointPeersIter P n :=
  match s.contactedPeers peer with
  | some state =>
    s.report peer state ((s.iters state.initiatedBy).onFailure peer).1 .failed (.onFailure peer) (.onFailure peer)
  | none => (false, s)

def onSuccess (s : ClosestDisjointPeersIter P n) (peer : P) (closerPeers : List P) :
    Bool × ClosestDisjointPeersIter P n :=
  match s.contactedPeers peer with
  | some state =>
    s.report peer state ((s.iters state.initiatedBy).onSuccess peer closerPeers).1 .succeeded
      (.onSuccess peer closerPeers) (.onSuccess peer [])
  | none => (false, s)

/-- Tells a path what is known of a peer that was contacted before. -/
def handOn (peer : P) : ResponseState → ClosestDisjointPeersIter P n
  | .waiting => s
  | .succeeded => s.onPath i (.call (.onSuccess peer []))
  | .failed => s.onPath i (.call (.onFailure peer))

end

/-- The loop that polls one path until it hands out a peer nobody contacted before, or none. -/
def pollPath (i : Fin n) (now : Instant) :
    Nat → ClosestDisjointPeersIter P n → Except DisjointFault (PeersIterState P × ClosestDisjointPeersIter P n)
  | 0, _ => .error .endless
  | fuel + 1, s =>
    let answer := ((s.iters i).next now).1
    let s := s.onPath i (.call (.next now))
    match answer with
    | .waiting (some peer) =>
      match s.contactedPeers peer with
      | some state => pollPath i now fuel (s.handOn i peer state.response)
      | none => .ok (.waiting (some peer), s.setContacted peer (.new i))
    | .waiting none => .ok (.waiting none, s)
    | .waitingAtCapacity => .ok (.waitingAtCapacity, s)
    | .finished => .ok (.finished, s)

/-- The state of the paths so far after one that waits for responses. -/
def afterWaiting : Option (PeersIterState P) → Except DisjointFault (Option (PeersIterState P))
  | some (.waiting (some _)) => .error .unreachable
  | some (.waiting none) => .ok (some (.waiting none))
  | some .waitingAtCapacity => .ok (some (.waiting none))
  | some .finished => .error .unreachable
  | none => .ok (some (.waiting none))

/-- The state of the paths so far after one that may not wait for more responses. -/
def afterCapacity : Option (PeersIterState P) → Except DisjointFault (Option (PeersIterState P))
  | some (.waiting (some _)) => .error .unreachable
  | some (.waiting none) => .ok (some (.waiting none))
  | some .waitingAtCapacity => .ok (some .waitingAtCapacity)
  | some .finished => .error .unreachable
  | none => .ok (some .waitingAtCapacity)

variable [NeZero n]

/-- Polls a number of paths, the next one in turn first. A path can hand out each of the peers its iterator
knows once, which bounds the loop that polls it. -/
def pollPaths (now : Instant) : Nat → Option (PeersIterState P) → ClosestDisjointPeersIter P n →
    Except DisjointFault (PeersIterState P × ClosestDisjointPeersIter P n)
  | 0, state, s => .ok (state.getD .finished, s)
  | turns + 1, state, s =>
    let i := s.iterOrder
    let fuel := (s.iters i).closestPeers.entries.length + 1
    match pollPath i now fuel { s with iterOrder := i + 1 } with
    | .error fault => .error fault
    | .ok (.waiting (some peer), s) => .ok (.waiting (some peer), s)
    | .ok (.waiting none, s) =>
      match afterWaiting state with
      | .error fault => .error fault
      | .ok state => pollPaths now turns state s
    | .ok (.waitingAtCapacity, s) =>
      match afterCapacity state with
      | .error fault => .error fault
      | .ok state => pollPaths now turns state s
    | .ok (.finished, s) => pollPaths now turns state s

def next (s : ClosestDisjointPeersIter P n) (now : Instant) :
    Except DisjointFault (PeersIterState P × ClosestDisjointPeersIter P n) :=
  s.pollPaths now n none

/-! ### The end of a query -/

def isFinished (s : ClosestDisjointPeersIter P n) : Bool := (List.finRange n).all fun i => (s.iters i).isFinished

/-- Finishes the paths that contacted one of the peers. -/
def finishPaths (s : ClosestDisjointPeersIter P n) (peers : List P) : Bool × ClosestDisjointPeersIter P n :=
  let s := peers.foldl (fun s peer =>
    match s.contactedPeers peer with
    | some state => s.onPath state.initiatedBy .finish
    | none => s) s
  (s.isFinished, s)

def finish (s : ClosestDisjointPeersIter P n) : ClosestDisjointPeersIter P n :=
  (List.finRange n).foldl (fun s i => s.onPath i .finish) s

end ClosestDisjointPeersIter

inductive DisjointCall (P : Type) where
  | next (now : Instant)
  | onSuccess (peer : P) (closerPeers : List P)
  | onFailure (peer : P)
  | finishPaths (peers : List P)
  | finish

inductive DisjointOutput (P : Type) where
  | polled (state : PeersIterState P)
  | updated (updated : Bool)
  | isFinished (finished : Bool)
  | done

def ClosestDisjointPeersIter.exec {P : Type} [AsKeyBytes P] [DecidableEq P] {n : Nat} [NeZero n]
    (s : ClosestDisjointPeersIter P n) :
    DisjointCall P → Except DisjointFault (DisjointOutput P × ClosestDisjointPeersIter P n)
  | .next now => (s.next now).map fun r => (.polled r.1, r.2)
  | .onSuccess peer closerPeers => .ok ((s.onSuccess peer closerPeers).map .updated id)
  | .onFailure peer => .ok ((s.onFailure peer).map .updated id)
  | .finishPaths peers => .ok ((s.finishPaths peers).map .isFinished id)
  | .finish => .ok (.done, s.finish)

/-! The moves a query along disjoint paths consists of. No call fails: the loops end, and no
`unreachable!` is reached. -/
open ClosestPeersIter List

namespace ClosestDisjointPeersIter

variable {P : Type} [AsKeyBytes P] [DecidableEq P] {n : Nat}

omit [DecidableEq P] in
theorem foldl_onPath (call : PathCall P) {paths : List (Fin n)} (hn : paths.Nodup)
    (s : ClosestDisjointPeersIter P n) : paths.foldl (fun s i => s.onPath i call) s =
      { s with
        iters := fun j => if j ∈ paths then call.apply (s.iters j) else s.iters j
        calls := fun j => if j ∈ paths then s.calls j ++ [call] else s.calls j } := by
  induction paths generalizing s with
  | nil => simp
  | cons i paths ih =>
    obtain ⟨hi, hn⟩ := nodup_cons.1 hn
    rw [foldl_cons, ih hn, onPath]
    congr 1
    all_goals
      funext j
      rcases eq_or_ne j i with rfl | hji
      · simp [hi]
      · simp [hji]

theorem report_eq (s : ClosestDisjointPeersIter P n) (peer : P) (state : PeerState n) (updated : Bool)
    (response : ResponseState) (call otherCall : IterCall P) : (s.report peer state updated response call otherCall).2 =
      { s with
        iters := fun j => ((s.iters j).exec (if j = state.initiatedBy then call else otherCall)).2
        calls := fun j => s.calls j ++ [.call (if j = state.initiatedBy then call else otherCall)]
        contactedPeers :=
          if updated then Function.update s.contactedPeers peer (some { state with response })
          else s.contactedPeers } := by
  have hn : ((finRange n).filter fun i => i ≠ state.initiatedBy).Nodup := (nodup_finRange n).filter _
  have hs : ∀ s : ClosestDisjointPeersIter P n, (if updated then s.setContacted peer { state with response } else s) =
        { s with contactedPeers :=
            if updated then Function.update s.contactedPeers peer (some { state with response })
            else s.contactedPeers } := by
    intro s
    cases updated <;> rfl
  rw [report, foldl_onPath _ hn, hs, onPath]
  apply ClosestDisjointPeersIter.ext
  · funext j
    rcases eq_or_ne j state.initiatedBy with rfl | hj
    · simp [PathCall.apply]
    · simp [hj, PathCall.apply]
  · rfl
  · rfl
  funext j
  rcases eq_or_ne j state.initiatedBy with rfl | hj
  · simp
  · simp [hj]

/-- What the query does with its paths, and the peer that is to be contacted then. -/
inductive Move (s : ClosestDisjointPeersIter P n) : Option P → ClosestDisjointPeersIter P n → Prop where
  | rotate (i : Fin n) : Move s none { s with iterOrder := i }
  | poll (i : Fin n) (now : Instant) (hyield : ((s.iters i).next now).1.yielded = none) :
      Move s none (s.onPath i (.call (.next now)))
  | known (i : Fin n) (now : Instant) {peer : P} {state : PeerState n}
      (hyield : ((s.iters i).next now).1 = .waiting (some peer))
      (hknown : s.contactedPeers peer = some state) :
      Move s none ((s.onPath i (.call (.next now))).handOn i peer state.response)
  | contact (i : Fin n) (now : Instant) {peer : P} (hyield : ((s.iters i).next now).1 = .waiting (some peer))
      (hnew : s.contactedPeers peer = none) :
      Move s (some peer) ((s.onPath i (.call (.next now))).setContacted peer (.new i))
  | onSuccess (peer : P) (closerPeers : List P) : Move s none (s.onSuccess peer closerPeers).2
  | onFailure (peer : P) : Move s none (s.onFailure peer).2
  | finish (i : Fin n) : Move s none (s.onPath i .finish)

/-- A sequence of moves, and the peers that are to be contacted. -/
inductive Moves : ClosestDisjointPeersIter P n → List P → ClosestDisjointPeersIter P n → Prop where
  | nil (s : ClosestDisjointPeersIter P n) : Moves s [] s
  | cons {s s' s'' : ClosestDisjointPeersIter P n} {peer : Option P} {peers : List P}
      (hmove : Move s peer s') (hrest : Moves s' peers s'') : Moves s (peer.toList ++ peers) s''

variable {s s' : ClosestDisjointPeersIter P n}

theorem Move.moves {peer : Option P} (hm : Move s peer s') : Moves s peer.toList s' := by
  have ho := Moves.cons hm (.nil s')
  rwa [append_nil] at ho

theorem Moves.trans {s'' : ClosestDisjointPeersIter P n} {peers peers' : List P}
    (hm : Moves s peers s') (hm' : Moves s' peers' s'') : Moves s (peers ++ peers') s'' := by
  induction hm with
  | nil => exact hm'
  | cons hmo hr ih =>
    rw [append_assoc]
    exact .cons hmo (ih hm')

/-- What every move keeps, next to the peers to be contacted so far, holds after every sequence of
moves. -/
theorem Moves.invariant {peers : List P} (hm : Moves s peers s') (Inv : List P → ClosestDisjointPeersIter P n → Prop)
    (hst : ∀ {past s peer s'}, Inv past s → Move s peer s' → Inv (past ++ peer.toList) s')
    (past : List P) (hs : Inv past s) : Inv (past ++ peers) s' := by
  induction hm generalizing past with
  | nil => rwa [append_nil]
  | cons hmo hr ih =>
    rw [← append_assoc]
    exact ih _ (hst hs hmo)

omit [DecidableEq P] in
@[simp]
theorem onPath_iters_self (s : ClosestDisjointPeersIter P n) (i : Fin n) (call : PathCall P) :
    (s.onPath i call).iters i = call.apply (s.iters i) :=
  Function.update_self ..

omit [DecidableEq P] in
theorem handOn_notContactedCount (s : ClosestDisjointPeersIter P n) (i : Fin n) (peer : P) (resp : ResponseState) :
    notContactedCount ((s.handOn i peer resp).iters i).closestPeers.entries =
      notContactedCount (s.iters i).closestPeers.entries := by
  cases resp with
  | waiting => rfl
  | succeeded =>
    rw [handOn, onPath_iters_self]
    exact (onSuccess_case _ peer []).notContactedCount_eq rfl
  | failed =>
    rw [handOn, onPath_iters_self]
    exact (onFailure_case _ peer).notContactedCount_eq rfl

variable {i : Fin n} {now : Instant}

theorem pollPath_of_quiet (hy : ((s.iters i).next now).1.yielded = none) (fuel : Nat) :
    pollPath i now (fuel + 1) s = .ok (((s.iters i).next now).1, s.onPath i (.call (.next now))) := by
  rw [pollPath]
  cases ha : ((s.iters i).next now).1 with
  | waiting =>
    rw [ha, PeersIterState.yielded] at hy
    cases hy
    rfl
  | waitingAtCapacity => rfl
  | finished => rfl

theorem pollPath_moves (now : Instant) {fuel : Nat} (hf : notContactedCount (s.iters i).closestPeers.entries < fuel) :
    ∃ ans s', pollPath i now fuel s = .ok (ans, s') ∧ Moves s ans.yielded.toList s' := by
  induction fuel generalizing s with
  | zero => exact absurd hf (Nat.not_lt_zero _)
  | succ fuel ih =>
    cases ha : ((s.iters i).next now).1.yielded with
    | none =>
      refine ⟨_, _, pollPath_of_quiet ha fuel, ?_⟩
      rw [ha]
      exact (Move.poll i now ha).moves
    | some peer =>
      rw [PeersIterState.yielded_eq_some_iff] at ha
      rw [pollPath, ha]
      dsimp only
      cases hk : (s.onPath i (.call (.next now))).contactedPeers peer with
      | none => exact ⟨_, _, rfl, (Move.contact i now ha hk).moves⟩
      | some st =>
        have hn := (nextCase (s.iters i) now).notContactedCount_lt ha
        have hl : notContactedCount
            (((s.onPath i (.call (.next now))).handOn i peer st.response).iters i).closestPeers.entries < fuel := by
          rw [handOn_notContactedCount, onPath_iters_self]
          exact hn.trans_le (Nat.le_of_lt_succ hf)
        obtain ⟨ans, s', hr, hm⟩ := ih hl
        exact ⟨ans, s', hr, .cons (.known i now ha hk) hm⟩

variable [NeZero n]

theorem pollPaths_moves (now : Instant) (turns : Nat) {st : Option (PeersIterState P)}
    (hs : ∀ ans ∈ st, ans = .waiting none ∨ ans = .waitingAtCapacity)
    (s : ClosestDisjointPeersIter P n) :
    ∃ ans s', pollPaths now turns st s = .ok (ans, s') ∧ Moves s ans.yielded.toList s' := by
  induction turns generalizing st s with
  | zero =>
    refine ⟨_, s, rfl, ?_⟩
    have hq : (st.getD .finished).yielded = none := by
      cases st with
      | none => rfl
      | some ans => rcases hs ans rfl with rfl | rfl <;> rfl
    rw [hq]
    exact .nil s
  | succ turns ih =>
    have hf := countP_le_length (p := fun entry : Distance × Peer P => entry.2.state = .notContacted)
      (l := (s.iters s.iterOrder).closestPeers.entries)
    obtain ⟨ans, s₁, hp, hm⟩ := pollPath_moves now (s := { s with iterOrder := s.iterOrder + 1 }) (Nat.lt_succ_of_le hf)
    have hm : Moves s ans.yielded.toList s₁ := .cons (.rotate _) hm
    have hgo : ans.yielded = none → ∀ {st : Option (PeersIterState P)},
        (∀ ans ∈ st, ans = .waiting none ∨ ans = .waitingAtCapacity) →
        ∃ ans s', pollPaths now turns st s₁ = .ok (ans, s') ∧ Moves s ans.yielded.toList s' := by
      intro hq st hs
      obtain ⟨answer', s', hr, hm'⟩ := ih hs s₁
      rw [hq] at hm
      exact ⟨answer', s', hr, hm.trans hm'⟩
    simp only [pollPaths, hp]
    cases ans with
    | waiting peer =>
      cases peer with
      | some => exact ⟨_, _, rfl, hm⟩
      | none =>
        have ha : afterWaiting st = .ok (some (.waiting none)) := by
          cases st with
          | none => rfl
          | some ans => rcases hs ans rfl with rfl | rfl <;> rfl
        simp only [ha]
        exact hgo rfl (by simp)
    | waitingAtCapacity =>
      have ha : ∃ after, afterCapacity st = .ok after ∧
          ∀ ans ∈ after, ans = .waiting none ∨ ans = .waitingAtCapacity := by
        cases st with
        | none => exact ⟨_, rfl, by simp⟩
        | some ans => rcases hs ans rfl with rfl | rfl <;> exact ⟨_, rfl, by simp⟩
      obtain ⟨after, ha, hafS⟩ := ha
      simp only [ha]
      exact hgo rfl hafS
    | finished => exact hgo rfl hs

omit [NeZero n] in
theorem foldl_moves {β : Type} {f : ClosestDisjointPeersIter P n → β → ClosestDisjointPeersIter P n}
    (hf : ∀ s b, Moves s [] (f s b)) (bs : List β) (s : ClosestDisjointPeersIter P n) : Moves s [] (bs.foldl f s) := by
  induction bs generalizing s with
  | nil => exact .nil s
  | cons b bs ih => exact (hf s b).trans (ih (f s b))

def returnedPeer : DisjointOutput P → Option P
  | .polled state => state.yielded
  | .updated _ => none
  | .isFinished _ => none
  | .done => none

theorem exec_moves (s : ClosestDisjointPeersIter P n) (call : DisjointCall P) :
    ∃ out s', s.exec call = .ok (out, s') ∧ Moves s (returnedPeer out).toList s' := by
  cases call with
  | next now =>
    have hn : ∀ ans ∈ (none : Option (PeersIterState P)), ans = .waiting none ∨ ans = .waitingAtCapacity := by simp
    obtain ⟨ans, s', hp, hm⟩ := pollPaths_moves now n hn s
    exact ⟨.polled ans, s', by rw [exec, next, hp]; rfl, hm⟩
  | onSuccess peer closer => exact ⟨_, _, rfl, (Move.onSuccess peer closer).moves⟩
  | onFailure peer => exact ⟨_, _, rfl, (Move.onFailure peer).moves⟩
  | finishPaths peers =>
    refine ⟨_, _, rfl, foldl_moves (fun s peer => ?_) peers s⟩
    cases s.contactedPeers peer with
    | none => exact .nil s
    | some st => exact (Move.finish st.initiatedBy).moves
  | finish => exact ⟨_, _, rfl, foldl_moves (fun s i => (Move.finish i).moves) (finRange n) s⟩

end ClosestDisjointPeersIter
end RustLibp2p.Kad
