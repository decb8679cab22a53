import Mathlib.Data.List.Dedup
import Mathlib.Data.List.DropRight
import RustLibp2p.RelayBehaviour

/-! The addresses offered for a hole punch, out of those that were reported as candidates for an external address. A
cache keeps the last twenty of them. -/

namespace RustLibp2p.Dcutr
open List Relay

section Distinct

variable {α : Type} {a : α} {l : List α}

theorem reverse_eq_iff_of_nodup (hn : l.Nodup) : l.reverse = l ↔ l.length ≤ 1 := by
  match l with
  | [] => simp
  | [a] => simp
  | a :: b :: l =>
    simp only [reverse_cons, length_cons]
    refine ⟨fun h => ?_, fun h => by omega⟩
    -- the last element of the reversed list is `a`, which does not come again
    have hl := congrArg getLast? h
    rw [getLast?_concat, getLast?_cons_cons] at hl
    exact absurd (mem_of_getLast? hl.symm) (nodup_cons.1 hn).1

theorem dedup_concat [DecidableEq α] [BEq α] [LawfulBEq α] (l : List α) (a : α) :
    (l ++ [a]).dedup = l.dedup.erase a ++ [a] := by
  induction l with
  | nil => rfl
  | cons b l ih =>
    by_cases hl : b ∈ l
    · rw [cons_append, dedup_cons_of_mem (mem_append_left _ hl), dedup_cons_of_mem hl, ih]
    rw [dedup_cons_of_notMem hl]
    by_cases hb : b = a
    · subst hb
      rw [cons_append, dedup_cons_of_mem (by simp), ih, erase_cons_head, erase_of_not_mem (by simpa using hl)]
    · rw [cons_append, dedup_cons_of_notMem (by simp [hl, hb]), ih, erase_cons_tail (by simpa using hb)]
      rfl

variable [BEq α] [LawfulBEq α]

theorem take_erase_take (n : Nat) : ((l.take (n + 1)).erase a).take n = (l.erase a).take n := by
  induction l generalizing n with
  | nil => rfl
  | cons b l ih =>
    by_cases h : b = a
    · simp [h, take_take]
    · cases n with
      | zero => rfl
      | succ n => simp [h, ih]

theorem erase_reverse_of_nodup (hn : l.Nodup) : l.reverse.erase a = (l.erase a).reverse := by
  rw [(nodup_reverse.2 hn).erase_eq_filter, hn.erase_eq_filter, filter_reverse]

end Distinct

variable {Peer : Type} [DecidableEq Peer]

/-- `inner` goes from the least to the most recently used address. -/
structure Candidates (Peer : Type) where
  inner : List (Multiaddr Peer)
  me : Peer

namespace Candidates

def new (me : Peer) : Candidates Peer := ⟨[], me⟩

def withMe (me : Peer) (address : Multiaddr Peer) : Multiaddr Peer :=
  if address.getLast? ≠ some (.p2p me) then address ++ [.p2p me] else address

/-- The cache moves an entry it has to its end, and lets go of the first when it is full. -/
def add (self : Candidates Peer) (address : Multiaddr Peer) : Candidates Peer :=
  if isRelayed address then self
  else
    let address := withMe self.me address
    { self with inner := (self.inner.erase address ++ [address]).rtake 20 }

def observedAddresses (self : Candidates Peer) : List (Multiaddr Peer) := self.inner

/-- The addresses that may be offered, in the order of the reports. -/
def reported (me : Peer) (reports : List (Multiaddr Peer)) : List (Multiaddr Peer) :=
  (reports.filter fun address => !isRelayed address).map (withMe me)

/-- What was reported last, from the most recent on. -/
def latest (me : Peer) (reports : List (Multiaddr Peer)) : List (Multiaddr Peer) :=
  (reported me reports).dedup.reverse.take 20

def EndsInOne (me : Peer) (address : Multiaddr Peer) : Prop :=
  address.getLast? = some (.p2p me) ∧ address.dropLast.getLast? ≠ some (.p2p me)

def EndsInTwo (me : Peer) (address : Multiaddr Peer) : Prop :=
  address.getLast? = some (.p2p me) ∧ address.dropLast.getLast? = some (.p2p me)

theorem nodup_latest {me : Peer} {reports : List (Multiaddr Peer)} : (latest me reports).Nodup :=
  (nodup_reverse.2 (nodup_dedup _)).sublist (take_sublist _ _)

theorem endsInOne_withMe {me : Peer} {address : Multiaddr Peer} :
    EndsInOne me (withMe me address) ↔ ¬EndsInTwo me address := by
  unfold withMe EndsInOne EndsInTwo
  split
  · next h => simp [h]
  · next h => simp [not_not.1 h]

theorem foldl_add (me : Peer) (reports : List (Multiaddr Peer)) :
    reports.foldl add (new me) = ⟨(latest me reports).reverse, me⟩ := by
  induction reports using reverseRecOn with
  | nil => rfl
  | append_singleton reports address ih =>
    rw [foldl_concat, ih, add]
    split
    · next hr => simp [latest, reported, filter_append, hr]
    · next hr =>
      simp only [erase_reverse_of_nodup nodup_latest, rtake_eq_reverse_take_reverse, reverse_append, reverse_reverse,
        reverse_singleton, singleton_append, take_succ_cons]
      simp [latest, take_erase_take, reported, filter_append, hr, dedup_concat, erase_reverse_of_nodup (nodup_dedup _)]

/-- The addresses are those of the last reports, but in the order of the reports. The most recent comes first, and
each ends in the own id once, exactly if one address was reported and it did not end in that id twice. -/
theorem observedAddresses_latest (me : Peer) (reports : List (Multiaddr Peer)) :
    let offered := (reports.foldl add (new me)).observedAddresses
    offered = (latest me reports).reverse ∧
      (offered = latest me reports ∧ (∀ address ∈ offered, EndsInOne me address) ↔
        (reported me reports).dedup.length ≤ 1 ∧
          ∀ address ∈ reports, isRelayed address = false → ¬EndsInTwo me address) := by
  simp only [foldl_add, observedAddresses, reverse_eq_iff_of_nodup nodup_latest, true_and]
  have hl : (latest me reports).length ≤ 1 ↔ (reported me reports).dedup.length ≤ 1 := by
    rw [latest, length_take, length_reverse]
    omega
  rw [hl]
  refine and_congr_right fun h1 => ?_
  -- nothing was let go, so every report counts
  rw [latest, take_of_length_le (by rw [length_reverse]; omega)]
  simp only [mem_reverse, mem_dedup, reported, forall_mem_map, endsInOne_withMe, mem_filter, Bool.not_eq_true', and_imp]

/-- Two addresses are offered with the one reported first in front. -/
theorem observedAddresses_two :
    ((([[.other "a"], [.other "b"]] : List (Multiaddr Nat)).foldl add (new 0)).observedAddresses =
        [[.other "a", .p2p 0], [.other "b", .p2p 0]]) ∧
      latest 0 ([[.other "a"], [.other "b"]] : List (Multiaddr Nat)) =
        [[.other "b", .p2p 0], [.other "a", .p2p 0]] := by
  decide

end Candidates
end RustLibp2p.Dcutr
