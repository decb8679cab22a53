import Mathlib.Data.PNat.Defs
import RustLibp2p.QueryClosestRun

/-! The iterator over a fixed list of peers. It hands out each of them once and waits for the results of a limited
number of them at a time. -/

namespace RustLibp2p.Kad
open ClosestPeersIter List OrdMap Transition

inductive FixedPeersIter.PeerState where
  | waiting
  | failed
  | succeeded
  deriving DecidableEq

inductive FixedPeersIter.State where
  | waiting (numWaiting : Nat)
  | finished

structure FixedPeersIter (P : Type) [LinearOrder P] where
  parallelism : ℕ+
  /-- The peers that were handed out. -/
  peers : OrdMap P FixedPeersIter.PeerState
  iter : List P
  state : FixedPeersIter.State

namespace FixedPeersIter

variable {P : Type} [LinearOrder P]

def new (peers : List P) (parallelism : ℕ+) : FixedPeersIter P := ⟨parallelism, .empty, peers, .waiting 0⟩

section

variable (it : FixedPeersIter P)

def report (result : PeerState) (peer : P) : Bool × FixedPeersIter P :=
  match it.state, it.peers.get? peer with
  | .waiting numWaiting, some .waiting =>
    (true, { it with peers := it.peers.insert peer result, state := .waiting (wrappingPred numWaiting) })
  | _, _ => (false, it)

def onSuccess (peer : P) : Bool × FixedPeersIter P := it.report .succeeded peer

def onFailure (peer : P) : Bool × FixedPeersIter P := it.report .failed peer

/-- The loop of `next`, which passes over the peers that were handed out before. -/
def handOut (numWaiting : Nat) : List P → PeersIterState P × FixedPeersIter P
  | [] =>
    if numWaiting = 0 then (.finished, { it with iter := [], state := .finished })
    else (.waiting none, { it with iter := [] })
  | peer :: iter =>
    if (it.peers.get? peer).isSome then handOut numWaiting iter
    else (.waiting (some peer),
      { it with peers := it.peers.insert peer .waiting, iter, state := .waiting (numWaiting + 1) })

def next : PeersIterState P × FixedPeersIter P :=
  match it.state with
  | .finished => (.finished, it)
  | .waiting numWaiting =>
    if it.parallelism ≤ numWaiting then (.waitingAtCapacity, it) else it.handOut numWaiting it.iter

def exec : IterCall P → IterOutput P × FixedPeersIter P
  | .next _ => it.next.map .polled id
  | .onSuccess peer _ => (it.onSuccess peer).map .updated id
  | .onFailure peer => (it.onFailure peer).map .updated id

def awaited : Nat := it.peers.entries.countP fun entry => entry.2 = .waiting

end

structure Fixed (given : List P) (parallelism : ℕ+) (past : List (IterOutput P)) (it : FixedPeersIter P) : Prop where
  width : it.parallelism = parallelism
  once : (yielded past).Nodup
  known : ∀ peer, peer ∈ yielded past ↔ (it.peers.get? peer).isSome
  cover : ∀ peer, peer ∈ given ↔ peer ∈ it.iter ∨ (it.peers.get? peer).isSome
  bound : it.awaited ≤ parallelism
  counted : match it.state with
    | .waiting numWaiting => it.awaited = numWaiting
    | .finished => it.iter = [] ∧ it.awaited = 0

variable {given iter : List P} {parallelism : ℕ+} {past : List (IterOutput P)} {it : FixedPeersIter P}
  {numWaiting : Nat}

theorem Fixed.silent {output : IterOutput P} (hf : Fixed given parallelism past it)
    (ho : yieldedPeer output = none) : Fixed given parallelism (past ++ [output]) it := by
  have hp : yielded (past ++ [output]) = yielded past := by simp [yielded_append_singleton, ho]
  exact { hf with once := hp ▸ hf.once, known := hp ▸ hf.known }

theorem Fixed.report (hf : Fixed given parallelism past it) (result : PeerState) (hr : result ≠ .waiting) (peer : P) :
    Fixed given parallelism past (it.report result peer).2 := by
  obtain ⟨width, once, known, cover, bound, counted⟩ := hf
  unfold FixedPeersIter.report
  split
  · rename_i hs hg
    rw [hs] at counted
    have hn := countP_insert it.peers peer result fun entry => entry.2 = .waiting
    have ho := countP_of_get? hg fun entry => entry.2 = .waiting
    constructor <;> grind [awaited, wrappingPred]
  · constructor <;> assumption

theorem Fixed.handOut (hs : it.state = .waiting numWaiting) (hlt : numWaiting < it.parallelism)
    (hf : Fixed given parallelism past { it with iter }) :
    Fixed given parallelism (past ++ [.polled (it.handOut numWaiting iter).1]) (it.handOut numWaiting iter).2 := by
  have hc : it.awaited = numWaiting := by simpa [hs, awaited] using hf.counted
  induction iter with
  | nil =>
    unfold FixedPeersIter.handOut
    split_ifs with hz
    · exact silent { hf with counted := ⟨rfl, hc.trans hz⟩ } rfl
    · exact hf.silent rfl
  | cons peer iter ih =>
    unfold FixedPeersIter.handOut
    obtain ⟨width, once, known, cover, bound, counted⟩ := hf
    split_ifs with hk
    · exact ih ⟨width, once, known, by grind, bound, by simpa [hs, awaited] using hc⟩
    · have hn := countP_insert it.peers peer .waiting fun entry => entry.2 = .waiting
      rw [erase_of_get?_none (by simpa using hk)] at hn
      have hp : yielded (past ++ [.polled (.waiting (some peer))]) = yielded past ++ [peer] :=
        yielded_append_singleton ..
      constructor <;> grind [awaited]

theorem Fixed.exec (hf : Fixed given parallelism past it) (call : IterCall P) :
    Fixed given parallelism (past ++ [(it.exec call).1]) (it.exec call).2 := by
  cases call with
  | onSuccess peer => exact (hf.report .succeeded nofun peer).silent rfl
  | onFailure peer => exact (hf.report .failed nofun peer).silent rfl
  | next =>
    simp only [FixedPeersIter.exec, next]
    split
    · exact hf.silent rfl
    · split_ifs with hl
      · exact hf.silent rfl
      · exact Fixed.handOut ‹_› (not_le.1 hl) hf

theorem Fixed.next (hf : Fixed given parallelism past it) :
    it.next.1 = .finished ∨ (∃ peer, it.next.1 = .waiting (some peer)) ∨ 0 < it.awaited := by
  have hl iter numWaiting : (it.handOut numWaiting iter).1 = .finished ∨
      (∃ peer, (it.handOut numWaiting iter).1 = .waiting (some peer)) ∨ 0 < numWaiting := by
    fun_induction FixedPeersIter.handOut it numWaiting iter <;> grind
  have hc := hf.counted
  unfold FixedPeersIter.next
  split
  · exact .inl rfl
  · rename_i hs
    rw [hs] at hc
    split_ifs with hw
    · exact .inr (.inr (hc ▸ it.parallelism.pos.trans_le hw))
    · exact hc ▸ hl _ _

/-- Whatever calls are made, no peer is handed out twice, the results of at most `parallelism` peers are awaited at a
time, `next` stalls only while a result is awaited, and the iterator finishes when every peer has been handed out and
has its result. -/
theorem run_exec_fixed (given : List P) (parallelism : ℕ+) (calls : List (IterCall P)) :
    let r := runTotal exec (new given parallelism) calls
    (yielded r.1).Nodup ∧ (∀ peer ∈ yielded r.1, peer ∈ given) ∧ r.2.awaited ≤ parallelism ∧
      (r.2.next.1 = .finished ∨ (∃ peer, r.2.next.1 = .waiting (some peer)) ∨ 0 < r.2.awaited) ∧
      (r.2.state = .finished →
        ∀ peer ∈ given, peer ∈ yielded r.1 ∧ ∃ result ≠ .waiting, r.2.peers.get? peer = some result) := by
  intro r
  have hf : Fixed given parallelism r.1 r.2 := by
    refine runTotal_history (fun past it call (hit : Fixed given parallelism past it) => hit.exec call) calls [] ?_
    exact ⟨rfl, .nil, by simp [yielded, new, get?_empty], by simp [new, get?_empty], Nat.zero_le _, rfl⟩
  refine ⟨hf.once, fun peer hp => (hf.cover peer).2 (.inr ((hf.known peer).1 hp)), hf.bound, hf.next, ?_⟩
  intro hs peer hp
  have hc := hf.counted
  rw [hs] at hc
  have hk := (hf.cover peer).1 hp
  rw [hc.1] at hk
  have hsome := hk.resolve_left not_mem_nil
  obtain ⟨result, hr⟩ := Option.isSome_iff_exists.1 hsome
  exact ⟨(hf.known peer).2 hsome, result, by simpa using countP_eq_zero.1 hc.2 _ (get?_eq_some_iff.1 hr), hr⟩

end FixedPeersIter
end RustLibp2p.Kad
