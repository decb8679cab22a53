import Mathlib.Algebra.BigOperators.Fin
import Mathlib.Algebra.Order.BigOperators.Group.Finset
import RustLibp2p.KadTableInvariant

/-! The order of the closest entries. The keys of a bucket agree with the distance between target and
local key above the bit of the bucket and differ from it there, which orders any two buckets; the
traversal visits them in this order, so that sorting each bucket sorts the whole. -/

namespace RustLibp2p.Kad
open Transition List BucketIndex

/-! ### Distances of the keys of two buckets -/

/-- Every key of bucket `i` is nearer to the target than every key of bucket `j`. -/
def Nearer (d : Distance) (i j : BucketIndex) : Prop :=
  ∀ x y : Distance, x.ilog2 = some i.val → y.ilog2 = some j.val → x.bits ^^^ d.bits < y.bits ^^^ d.bits

theorem bitVec_lt_of_bit {x y : BitVec 256} (i : Nat) (hx : x.getLsbD i = false) (hy : y.getLsbD i)
    (ha : ∀ j, i < j → x.getLsbD j = y.getLsbD j) : x < y := by
  rw [BitVec.lt_def]
  exact Nat.lt_of_testBit i hx hy ha

variable {i j : BucketIndex}

theorem nearer_of_bits {d : Distance}
    (hb : j < i ∧ d.bits.getLsbD i ∨ i < j ∧ d.bits.getLsbD j = false) : Nearer d i j := by
  intro _ _ hx hy
  rw [Distance.ilog2_eq_some_iff] at hx hy
  rcases hb with ⟨hlt, hs⟩ | ⟨hlt, hu⟩
  · apply bitVec_lt_of_bit i
    · rw [BitVec.getLsbD_xor, hx.1, hs]
      rfl
    · rw [BitVec.getLsbD_xor, hy.2 i hlt, hs]
      rfl
    · intro k hk
      rw [BitVec.getLsbD_xor, BitVec.getLsbD_xor, hx.2 k hk, hy.2 k (Nat.lt_trans hlt hk)]
  · apply bitVec_lt_of_bit j
    · rw [BitVec.getLsbD_xor, hx.2 j hlt, hu]
      rfl
    · rw [BitVec.getLsbD_xor, hy.1, hu]
      rfl
    · intro k hk
      rw [BitVec.getLsbD_xor, BitVec.getLsbD_xor, hx.2 k (Nat.lt_trans hlt hk), hy.2 k hk]

/-! ### The order of the visits -/

namespace ClosestBucketsIter

/-- The buckets below `i` at a set bit of the distance, from the highest down. -/
def setBelow (d : Distance) (i : Nat) : List BucketIndex :=
  ((List.finRange numBuckets).take i).reverse.filter fun j => d.bits.getLsbD j

/-- The buckets from `i` on at an unset bit of the distance, from the lowest up. -/
def unsetFrom (d : Distance) (i : Nat) : List BucketIndex :=
  ((List.finRange numBuckets).drop i).filter fun j => !d.bits.getLsbD j

def remaining (it : ClosestBucketsIter) : List BucketIndex :=
  match it.state with
  | .start i => i :: (setBelow it.distance i ++ 0 :: unsetFrom it.distance 1)
  | .zoomIn i => setBelow it.distance i ++ 0 :: unsetFrom it.distance 1
  | .zoomOut i => unsetFrom it.distance (i + 1)
  | .done => []

theorem setBelow_succ (d : Distance) (i : BucketIndex) :
    setBelow d (i + 1) = if d.bits.getLsbD i then i :: setBelow d i else setBelow d i := by
  have ht : (List.finRange numBuckets).take (i + 1) = (List.finRange numBuckets).take i ++ [i] := by
    rw [take_add_one]
    simp
  rw [setBelow, ht, reverse_append, reverse_singleton, singleton_append, filter_cons]
  rfl

theorem unsetFrom_eq (d : Distance) (i : BucketIndex) :
    unsetFrom d i = if d.bits.getLsbD i then unsetFrom d (i + 1) else i :: unsetFrom d (i + 1) := by
  have hd : (List.finRange numBuckets).drop i = i :: (List.finRange numBuckets).drop (i + 1) := by
    rw [drop_eq_getElem_cons (by simp)]
    simp
  rw [unsetFrom, hd, filter_cons]
  cases d.bits.getLsbD i <;> rfl

variable {d : Distance} {j i : BucketIndex} {rest : List BucketIndex}

theorem setBelow_eq_cons {n : Nat} (hn : n ≤ numBuckets) (hc : setBelow d n = j :: rest) : rest = setBelow d j := by
  induction n with
  | zero => cases hc
  | succ n ih =>
    rw [setBelow_succ d ⟨n, hn⟩] at hc
    split_ifs at hc
    · cases hc
      rfl
    · exact ih (Nat.le_of_succ_le hn) hc

theorem unsetFrom_eq_cons {n : Nat} (hc : unsetFrom d n = j :: rest) : rest = unsetFrom d (j + 1) := by
  by_cases hn : n < numBuckets
  · rw [unsetFrom_eq d ⟨n, hn⟩] at hc
    split_ifs at hc
    · exact unsetFrom_eq_cons hc
    · cases hc
      rfl
  · have hnil : unsetFrom d n = [] := by
      rw [unsetFrom, drop_eq_nil_of_le (by simpa using Nat.not_lt.1 hn)]
      rfl
    rw [hnil] at hc
    cases hc
termination_by numBuckets - n

theorem next_remaining (it : ClosestBucketsIter) : it.next.1 = it.remaining.head? ∧
    it.next.2.remaining = it.remaining.tail ∧ it.next.2.distance = it.distance := by
  obtain ⟨d, st⟩ := it
  cases st with
  | start | done => exact ⟨rfl, rfl, rfl⟩
  | zoomIn i =>
    have hh : nextIn ⟨d, .zoomIn i⟩ i = (setBelow d i).head? := (head?_filter ..).symm
    cases hs : setBelow d i with
    | nil => simp [next, remaining, hh, hs]
    | cons =>
      have hr := setBelow_eq_cons i.isLt.le hs
      simp [next, remaining, hh, hs, hr]
  | zoomOut i =>
    have hh : nextOut ⟨d, .zoomOut i⟩ i = (unsetFrom d (i + 1)).head? := (head?_filter ..).symm
    cases hu : unsetFrom d (i + 1) with
    | nil => simp [next, remaining, hh, hu]
    | cons =>
      have hr := unsetFrom_eq_cons hu
      simp [next, remaining, hh, hu, hr]

theorem length_remaining_le (it : ClosestBucketsIter) : it.remaining.length ≤ 2 * numBuckets := by
  have hs : ∀ i : BucketIndex, (setBelow it.distance i).length ≤ i := by
    intro i
    refine (length_filter_le ..).trans ?_
    simp
  have hu : ∀ i, (unsetFrom it.distance (i + 1)).length ≤ numBuckets - 1 := by
    intro i
    refine (length_filter_le ..).trans ?_
    rw [length_drop, length_finRange]
    omega
  have hz : (unsetFrom it.distance 1).length ≤ numBuckets - 1 := hu 0
  unfold remaining
  cases it.state with
  | start i | zoomIn i =>
    have := hs i
    have := i.isLt
    simp only [length_cons, length_append]
    omega
  | zoomOut i => exact (hu i).trans (by decide)
  | done => exact Nat.zero_le _

theorem mem_setBelow {i : Nat} : j ∈ setBelow d i ↔ j.val < i ∧ d.bits.getLsbD j := by
  have ht : j ∈ (List.finRange numBuckets).take i ↔ j.val < i := by
    simp only [mem_take_iff_getElem, getElem_finRange, length_finRange]
    constructor
    · rintro ⟨_, hk, rfl⟩
      exact (Nat.lt_min.1 hk).1
    · intro hj
      exact ⟨j, Nat.lt_min.2 ⟨hj, j.isLt⟩, rfl⟩
  rw [setBelow, mem_filter, mem_reverse, ht]

theorem mem_unsetFrom {i : Nat} : j ∈ unsetFrom d i ↔ i ≤ j.val ∧ d.bits.getLsbD j = false := by
  have hd : j ∈ (List.finRange numBuckets).drop i ↔ i ≤ j.val := by
    simp only [mem_drop_iff_getElem, getElem_finRange, length_finRange]
    constructor
    · rintro ⟨k, _, rfl⟩
      exact Nat.le_add_right i k
    · intro _
      exact ⟨j - i, by omega, Fin.ext (by simp; omega)⟩
  rw [unsetFrom, mem_filter, hd, Bool.not_eq_true']

theorem setBelow_pairwise (d : Distance) (i : Nat) : (setBelow d i).Pairwise (fun j k => k < j) := by
  apply List.Pairwise.filter
  rw [pairwise_reverse]
  exact (pairwise_lt_finRange numBuckets).sublist (take_sublist _ _)

theorem unsetFrom_pairwise (d : Distance) (i : Nat) : (unsetFrom d i).Pairwise (fun j k => j < k) := by
  apply List.Pairwise.filter
  exact (pairwise_lt_finRange numBuckets).sublist (drop_sublist _ _)

/-- The order of two visits: the nearer bucket first; only bucket `0` is visited twice. -/
def Ordered (d : Distance) (i j : BucketIndex) : Prop := i = 0 ∧ j = 0 ∨ i ≠ j ∧ Nearer d i j

theorem ordered_of_set (hs : d.bits.getLsbD i) (hlt : j < i) : Ordered d i j :=
  .inr ⟨Fin.ne_of_gt hlt, nearer_of_bits (.inl ⟨hlt, hs⟩)⟩

theorem ordered_of_unset (hu : d.bits.getLsbD j = false) (hlt : i < j) : Ordered d i j :=
  .inr ⟨Fin.ne_of_lt hlt, nearer_of_bits (.inr ⟨hlt, hu⟩)⟩

theorem ordered_zero_unset (d : Distance) : ((0 : BucketIndex) :: unsetFrom d 1).Pairwise (Ordered d) := by
  rw [pairwise_cons]
  refine ⟨fun j hj => ?_, ?_⟩
  · obtain ⟨hpos, hu⟩ := mem_unsetFrom.1 hj
    exact ordered_of_unset hu (Fin.lt_def.2 hpos)
  · refine (unsetFrom_pairwise d 1).imp_of_mem fun {i j} _ hj hlt => ?_
    exact ordered_of_unset (mem_unsetFrom.1 hj).2 hlt

theorem ordered_set_unset (hs : d.bits.getLsbD i)
    (hj : j ∈ (0 : BucketIndex) :: unsetFrom d 1) : Ordered d i j := by
  rcases mem_cons.1 hj with rfl | hj
  · by_cases hz : i = 0
    · exact .inl ⟨hz, rfl⟩
    · exact ordered_of_set hs (Nat.pos_of_ne_zero fun h => hz (Fin.ext h))
  obtain ⟨-, hu⟩ := mem_unsetFrom.1 hj
  rcases Nat.lt_trichotomy i.val j.val with hlt | heq | hgt
  · exact ordered_of_unset hu hlt
  · rw [← heq, hs] at hu
    cases hu
  · exact ordered_of_set hs hgt

theorem ordered_zoomIn (d : Distance) (i : Nat) :
    (setBelow d i ++ (0 : BucketIndex) :: unsetFrom d 1).Pairwise (Ordered d) := by
  rw [pairwise_append]
  refine ⟨?_, ordered_zero_unset d, fun j hj k hk => ordered_set_unset (mem_setBelow.1 hj).2 hk⟩
  refine (setBelow_pairwise d i).imp_of_mem fun {j k} hj _ hlt => ?_
  exact ordered_of_set (mem_setBelow.1 hj).2 hlt

theorem ordered_new (d : Distance) : (new d).remaining.Pairwise (Ordered d) := by
  unfold new
  cases hnew : BucketIndex.new d with
  | some i =>
    have hs := (Distance.ilog2_eq_some_iff.1 (ilog2_of_new hnew)).1
    refine pairwise_cons.2 ⟨fun j hj => ?_, ordered_zoomIn d i⟩
    rcases mem_append.1 hj with hj | hj
    · exact ordered_of_set hs (mem_setBelow.1 hj).1
    · exact ordered_set_unset hs hj
  | none =>
    refine pairwise_cons.2 ⟨fun j hj => ?_, ordered_zoomIn d 0⟩
    rcases mem_cons.1 hj with rfl | hj
    · exact .inl ⟨rfl, rfl⟩
    · exact (pairwise_cons.1 (ordered_zero_unset d)).1 j hj

theorem mem_remaining_new (d : Distance) (i : BucketIndex) : i ∈ (new d).remaining := by
  have ho : d.bits.getLsbD i = false → i ∈ (0 : BucketIndex) :: unsetFrom d 1 := by
    intro hu
    by_cases hz : i = 0
    · exact mem_cons.2 (.inl hz)
    · exact mem_cons_of_mem _ (mem_unsetFrom.2 ⟨Nat.pos_of_ne_zero fun h => hz (Fin.ext h), hu⟩)
  unfold new
  cases hnew : BucketIndex.new d with
  | some top =>
    have ha := (Distance.ilog2_eq_some_iff.1 (ilog2_of_new hnew)).2
    cases hb : d.bits.getLsbD i with
    | false => exact mem_cons_of_mem _ (mem_append_right _ (ho hb))
    | true =>
      rcases Nat.lt_trichotomy i.val top.val with hlt | heq | hgt
      · exact mem_cons_of_mem _ (mem_append_left _ (mem_setBelow.2 ⟨hlt, hb⟩))
      · exact mem_cons.2 (.inl (Fin.ext heq))
      · rw [ha i hgt] at hb
        cases hb
  | none =>
    apply mem_cons_of_mem
    apply mem_append_right
    apply ho
    rw [bits_of_new hnew]
    simp

/-- What so many calls of `next` yield. -/
def yields : Nat → ClosestBucketsIter → List BucketIndex
  | 0, _ => []
  | calls + 1, it =>
    match it.next with
    | (some i, it) => i :: yields calls it
    | (none, _) => []

theorem yields_eq (it : ClosestBucketsIter) (calls : Nat) : yields calls it = it.remaining.take calls := by
  induction calls generalizing it with
  | zero => rfl
  | succ calls ih =>
    obtain ⟨hh, ht, -⟩ := it.next_remaining
    rw [yields]
    cases hr : it.remaining with
    | nil =>
      rw [hr] at hh
      rw [show it.next = (none, it.next.2) from Prod.ext hh rfl]
      rfl
    | cons i =>
      rw [hr] at hh ht
      rw [show it.next = (some i, it.next.2) from Prod.ext hh rfl]
      simp [ih, ht]

section

variable {top : BucketIndex} (hnew : BucketIndex.new d = some top)
include hnew

theorem remaining_of_new : (new d).remaining = (top :: setBelow d top) ++ 0 :: unsetFrom d 1 := by
  simp [new, hnew, remaining]

theorem getLsbD_of_new : d.bits.getLsbD top := (Distance.ilog2_eq_some_iff.1 (ilog2_of_new hnew)).1

end

theorem descending_from (d : Distance) (i : BucketIndex) : (i :: setBelow d i).Pairwise fun j k => k < j :=
  pairwise_cons.2 ⟨fun _ hj => (mem_setBelow.1 hj).1, setBelow_pairwise d i⟩

/-- Every bucket is visited once, except that bucket `0` is visited again if the distance is odd or zero. -/
theorem yields_once_iff (d : Distance) {calls : Nat} (hcalls : 2 * numBuckets ≤ calls) :
    (∀ i, (yields calls (new d)).count i = 1) ↔ d.bits ≠ 0 ∧ d.bits.getLsbD 0 = false := by
  have ho : (∀ i, (new d).remaining.count i = 1) ↔ (new d).remaining.Nodup := by
    rw [nodup_iff_count_eq_one]
    exact ⟨fun h i _ => h i, fun h i => h i (mem_remaining_new d i)⟩
  rw [yields_eq, take_of_length_le ((length_remaining_le _).trans hcalls), ho]
  cases hnew : BucketIndex.new d with
  | none =>
    have hz := bits_of_new hnew
    simp [new, hnew, remaining, hz]
  | some top =>
    have ht := getLsbD_of_new hnew
    have hs : ∀ j ∈ top :: setBelow d top, d.bits.getLsbD j = true :=
      forall_mem_cons.2 ⟨ht, fun j hj => (mem_setBelow.1 hj).2⟩
    rw [remaining_of_new hnew, nodup_append]
    constructor
    · rintro ⟨-, -, hd⟩
      refine ⟨fun hz => by simp [hz] at ht, Bool.eq_false_iff.2 fun hod => ?_⟩
      -- bucket `0` is among those at a set bit
      have hmem : (0 : BucketIndex) ∈ top :: setBelow d top := by
        by_cases ht : top = 0
        · simp [ht]
        · exact mem_cons_of_mem _ (mem_setBelow.2 ⟨Nat.pos_of_ne_zero fun h => ht (Fin.ext h), hod⟩)
      exact hd 0 hmem 0 mem_cons_self rfl
    · rintro ⟨-, he⟩
      have hu : ∀ j ∈ (0 : BucketIndex) :: unsetFrom d 1, d.bits.getLsbD j = false :=
        forall_mem_cons.2 ⟨he, fun j hj => (mem_unsetFrom.1 hj).2⟩
      refine ⟨?_, ?_, ?_⟩
      · exact (descending_from d top).imp Fin.ne_of_gt
      · refine nodup_cons.2 ⟨fun h => absurd (mem_unsetFrom.1 h).1 (Nat.not_succ_le_zero 0), ?_⟩
        exact (unsetFrom_pairwise d 1).imp Fin.ne_of_lt
      · rintro i hi j hj rfl
        cases (hs i hi).symm.trans (hu i hj)

theorem yields_once_iff_two : (∀ i, (yields 512 (new ⟨2⟩)).count i = 1) ↔ (2 : BitVec 256) ≠ 0 ∧
    (2 : BitVec 256).getLsbD 0 = false :=
  yields_once_iff ⟨2⟩ (Nat.le_refl 512)

/-- From distance zero bucket `0` is visited twice. -/
theorem yields_zero_twice : (yields 512 (new .zero)).count 0 = 2 := by decide +kernel

end ClosestBucketsIter

/-! How many nodes the routing table stores between the local node and a target, as it is counted to decide how long a
received record is kept. -/
open ClosestBucketsIter Distance

variable {K V : Type} [AsKeyBytes K]

def KBucket.numEntries (b : KBucket K V) : Nat := b.nodes.length

namespace KBucketsTable

/-- The nodes of a bucket that are no farther from the local key than `distance`. -/
def countWithin (t : KBucketsTable K V) (distance : Distance) (i : BucketIndex) : Nat :=
  (t.buckets i).nodes.countP fun node => (keyBytes node.key).distance (keyBytes t.localKey) ≤ distance

def countNodesBetween (t : KBucketsTable K V) (target : KeyBytes) : Nat :=
  let distance := target.distance (keyBytes t.localKey)
  match ((ClosestBucketsIter.new distance).yields (2 * numBuckets)).takeWhile (· ≠ 0) with
  | i :: rest => t.countWithin distance i + (rest.map fun j => (t.buckets j).numEntries).sum
  | [] => 0

end KBucketsTable

theorem Distance.lt_of_ilog2_lt {x y : Distance} {i j : Nat} (hx : x.ilog2 = some i) (hy : y.ilog2 = some j)
    (hlt : i < j) : x < y := by
  rw [ilog2_eq_some_iff] at hx hy
  exact bitVec_lt_of_bit j (hx.2 j hlt) hy.1 fun k hk => (hx.2 k (hlt.trans hk)).trans (hy.2 k hk).symm

namespace ClosestBucketsIter

/-- The buckets that are visited before the first visit of bucket `0`. -/
theorem takeWhile_descending {visits later : List BucketIndex} (hv : visits.Pairwise fun i j => j < i) :
    (visits ++ 0 :: later).takeWhile (· ≠ 0) = visits.filter (· ≠ 0) := by
  induction hv with
  | nil => rfl
  | @cons i visits hl _ ih =>
    by_cases hz : i = 0
    · have hla : visits = [] := eq_nil_iff_forall_not_mem.2 fun j hj =>
        absurd (hl j hj) (by rw [hz]; exact Nat.not_lt_zero _)
      simp [hz, hla]
    · simpa [hz] using ih

end ClosestBucketsIter

namespace KBucketsTable

variable {localKey : K} {config : KBucketConfig} {taken : List (AppliedPending K V)} {t : KBucketsTable K V}
  {distance : Distance} {i top : BucketIndex}

section

variable (ht : Inv localKey config taken t)
include ht

theorem ilog2_of_mem {node : Node K V} (hn : node ∈ (t.buckets i).nodes) :
    ((keyBytes node.key).distance (keyBytes t.localKey)).ilog2 = some i.val := by
  rw [KeyBytes.distance_comm, ht.localKey_eq]
  exact ht.index i _ (KBucket.nodeKeys_subset_keys _ (mem_map_of_mem hn))

theorem countWithin_of_lt (hto : distance.ilog2 = some top.val) (hlt : i < top ∨ i = 0 ∧ top = 0) :
    t.countWithin distance i = (t.buckets i).numEntries := by
  refine countP_eq_length.2 fun node hn => decide_eq_true ?_
  have hl := ilog2_of_mem ht hn
  rcases hlt with hlt | ⟨rfl, rfl⟩
  · exact (lt_of_ilog2_lt hl hto hlt).le
  · exact (Distance.eq_of_ilog2_zero hl hto).le

theorem countWithin_of_gt (hto : distance.ilog2 = some top.val) (hgt : top < i) : t.countWithin distance i = 0 :=
  countP_eq_zero.2 fun _ hn hle =>
    absurd (of_decide_eq_true hle) (lt_of_ilog2_lt hto (ilog2_of_mem ht hn) hgt).not_ge

theorem countWithin_zero (hz : distance.bits = 0) : t.countWithin distance i = 0 := by
  refine countP_eq_zero.2 fun node hn hle => ?_
  have hl := ilog2_of_mem ht hn
  have hle : ((keyBytes node.key).distance (keyBytes t.localKey)).bits.toNat ≤ distance.bits.toNat :=
    of_decide_eq_true hle
  rw [hz] at hle
  rw [ilog2_eq_none_iff.2 (BitVec.eq_of_toNat_eq (Nat.le_zero.1 hle))] at hl
  cases hl

/-- The buckets that are counted: that of the target and those below it at a set bit, without bucket `0`. -/
theorem countNodesBetween_eq {tgt : KeyBytes} (hd : tgt.distance (keyBytes t.localKey) = distance)
    (hn : BucketIndex.new distance = some top) : t.countNodesBetween tgt =
      ∑ i ∈ ((top :: setBelow distance top).filter (· ≠ 0)).toFinset, t.countWithin distance i := by
  have hde := descending_from distance top
  have hno : ((top :: setBelow distance top).filter (· ≠ 0)).Nodup :=
    (hde.imp Fin.ne_of_gt).filter _
  unfold countNodesBetween
  dsimp only
  rw [hd, yields_eq, take_of_length_le (length_remaining_le _), remaining_of_new hn,
    takeWhile_descending hde, sum_toFinset _ hno]
  by_cases hz : top = 0
  · subst hz
    rfl
  rw [filter_cons_of_pos (by simpa using hz)]
  dsimp only
  rw [map_cons, sum_cons]
  congr 2
  refine map_congr_left fun j hj => (countWithin_of_lt ht (ilog2_of_new hn) ?_).symm
  exact .inl (mem_setBelow.1 (mem_of_mem_filter hj)).1

end

/-- The count is right if and only if no bucket that is left out holds a node: bucket `0` and, below the bucket of the
target, those at an unset bit. -/
theorem countNodesBetween_eq_iff (localKey : K) (config : KBucketConfig) (ops : List (TableOp K V))
    (target : KeyBytes) :
    ∃ outputs t, run exec (new localKey config) ops = .ok (outputs, t) ∧
      (t.countNodesBetween target = ∑ i, t.countWithin (target.distance (keyBytes localKey)) i ↔
        ∀ top, (target.distance (keyBytes localKey)).ilog2 = some top → ∀ i : BucketIndex, i.val ≤ top →
          i = 0 ∨ (target.distance (keyBytes localKey)).bits.getLsbD i = false → (t.buckets i).nodes = []) := by
  obtain ⟨outputs, t, hrun, ht⟩ := inv_run localKey config ops
  refine ⟨outputs, t, hrun, ?_⟩
  rw [← ht.localKey_eq]
  generalize hd : target.distance (keyBytes t.localKey) = distance
  cases hn : BucketIndex.new distance with
  | none =>
    have hz := bits_of_new hn
    have hr : ∑ i, t.countWithin distance i = 0 := Finset.sum_eq_zero fun i _ => countWithin_zero ht hz
    rw [hr]
    refine iff_of_true ?_ fun top hto => ?_
    · unfold countNodesBetween
      dsimp only
      rw [hd, yields_eq, take_of_length_le (length_remaining_le _)]
      simp [ClosestBucketsIter.new, hn, remaining]
    · rw [ilog2_eq_none_iff.2 hz] at hto
      cases hto
  | some top =>
    have hto := ilog2_of_new hn
    have hs := getLsbD_of_new hn
    rw [countNodesBetween_eq ht hd hn,
      ← Finset.sum_add_sum_compl ((top :: setBelow distance top).filter (· ≠ 0)).toFinset, left_eq_add,
      Finset.sum_eq_zero_iff]
    simp only [Finset.mem_compl, mem_toFinset, mem_filter, mem_cons, mem_setBelow, decide_eq_true_eq]
    constructor
    · intro hno _ hto' i hle ho
      cases hto.symm.trans hto'
      have hlt : i < top ∨ i = 0 ∧ top = 0 := by
        rcases hle.lt_or_eq with hlt | heq
        · exact .inl hlt
        · obtain rfl := Fin.ext heq
          exact .inr (by simpa [hs] using ho)
      refine length_eq_zero_iff.1 ((countWithin_of_lt ht hto hlt).symm.trans (hno i ?_))
      rintro ⟨rfl | ⟨-, hb⟩, hne⟩
      · simp [hs, hne] at ho
      · simp [hb, hne] at ho
    · intro he i hi
      rcases Nat.lt_or_ge top i with hgt | hle
      · exact countWithin_of_gt ht hto hgt
      rw [countWithin, he top hto i hle, countP_nil]
      by_contra hin
      rw [not_or, Bool.not_eq_false] at hin
      exact hi ⟨hle.eq_or_lt.imp Fin.ext fun hlt => ⟨hlt, hin.2⟩, hin.1⟩

/-- A node at distance `2` is not counted for a target at distance `4`. -/
theorem countNodesBetween_misses : ∃ outputs t, run exec (new (⟨0⟩ : KeyBytes)
      ⟨1, by decide, 10⟩) [.entry ⟨2⟩ 0 ⟨[], false, [], false, some ((), .connected, 0)⟩] = .ok (outputs, t) ∧
    t.countNodesBetween ⟨4⟩ = 0 ∧ ∑ i, t.countWithin ⟨4⟩ i = 1 :=
  ⟨_, _, rfl, by decide +kernel, by decide +kernel⟩

end KBucketsTable

/-! What the iterators over the closest entries produce: all entries of the table by their distance to
the target, however many of them are pulled at a time. -/
open KBucket KBucketsTable

variable {K V Out : Type}

/-- The entries of a list of buckets one after the other, each sorted as it is visited. -/
def collect (sort : KBucket K V → List Out) (clock : Nat → Instant) :
    List BucketIndex → Nat → KBucketsTable K V → Except Panic (List Out × KBucketsTable K V)
  | [], _, t => .ok ([], t)
  | i :: rest, visits, t => do
      let t ← t.visit i (clock visits)
      let (xs, last) ← collect sort clock rest (visits + 1) t
      .ok (sort (t.buckets i) ++ xs, last)

variable {i : BucketIndex}

theorem collect_cons_eq_ok {sort : KBucket K V → List Out} {clock : Nat → Instant}
    {rest : List BucketIndex} {visits : Nat} {t last : KBucketsTable K V} {xs : List Out}
    (hc : collect sort clock (i :: rest) visits t = .ok (xs, last)) :
    ∃ next ys, t.visit i (clock visits) = .ok next ∧
      collect sort clock rest (visits + 1) next = .ok (ys, last) ∧ xs = sort (next.buckets i) ++ ys := by
  rw [collect] at hc
  cases hv : t.visit i (clock visits) with
  | error => simp only [hv, bind, Except.bind, reduceCtorEq] at hc
  | ok next =>
    cases hr : collect sort clock rest (visits + 1) next with
    | error => simp only [hv, hr, bind, Except.bind, reduceCtorEq] at hc
    | ok res =>
      simp only [hv, hr, bind, Except.bind, Except.ok.injEq, Prod.mk.injEq] at hc
      obtain ⟨rfl, rfl⟩ := hc
      exact ⟨next, res.1, rfl, hr, rfl⟩

variable {it : ClosestIter K V Out}

namespace ClosestIter

variable [AsKeyBytes Out]

/-- The iterator still produces these items and leaves this table behind. -/
def Upcoming (clock : Nat → Instant) (it : ClosestIter K V Out) (t : KBucketsTable K V) (xs : List Out)
    (last : KBucketsTable K V) : Prop :=
  ∃ ys, collect it.sorted clock it.bucketsIter.remaining it.visits t = .ok (ys, last) ∧ xs = it.iter ++ ys

section

variable {clock : Nat → Instant} {it : ClosestIter K V Out} {t last : KBucketsTable K V} {xs : List Out}
  (hxs : it.Upcoming clock t xs last)
include hxs

theorem Upcoming.nextLoop {fuel : Nat} (hf : it.bucketsIter.remaining.length < fuel) :
    ∃ it' t', it.nextLoop clock fuel t = .ok (xs.head?, it', t') ∧ it'.Upcoming clock t' xs.tail last ∧
      (xs = [] → t' = last) := by
  induction fuel generalizing it t with
  | zero => cases hf
  | succ fuel ih =>
    obtain ⟨ys, hc, hxs⟩ := hxs
    unfold nextLoop
    cases hi : it.iter with
    | cons x rest =>
      rw [hi] at hxs
      subst hxs
      refine ⟨{ it with iter := rest }, t, rfl, ⟨ys, hc, rfl⟩, ?_⟩
      rintro ⟨⟩
    | nil =>
      rw [hi, nil_append] at hxs
      subst hxs
      obtain ⟨hh, ht, -⟩ := it.bucketsIter.next_remaining
      rcases hn : it.bucketsIter.next with ⟨_, bucketsIter⟩
      rw [hn] at hh ht
      cases hr : it.bucketsIter.remaining with
      | nil =>
        rw [hr] at hh ht hc
        cases hh
        cases hc
        exact ⟨_, _, rfl, ⟨[], by rw [ht]; rfl, by simp⟩, fun _ => rfl⟩
      | cons =>
        rw [hr] at hh ht hc hf
        cases hh
        obtain ⟨next, zs, hv, hre, rfl⟩ := collect_cons_eq_ok hc
        simp only [hv, bind, Except.bind]
        refine ih ⟨zs, ?_, rfl⟩ ?_
        · rw [ht]
          exact hre
        · rw [ht]
          exact Nat.lt_of_succ_lt_succ hf

theorem Upcoming.pull (items : Nat) :
    ∃ it' t', it.pull clock items t = .ok (xs.take items, it', t') ∧ (xs.length < items → t' = last) := by
  induction items generalizing it t xs with
  | zero => exact ⟨it, t, rfl, nofun⟩
  | succ items ih =>
    obtain ⟨it', t', hf, hr, he⟩ := hxs.nextLoop (Nat.lt_succ_of_le it.bucketsIter.length_remaining_le)
    cases xs with
    | nil =>
      refine ⟨it', t', ?_, fun _ => he rfl⟩
      simp only [pull, next, hf, bind, Except.bind, head?_nil, take_nil]
    | cons =>
      obtain ⟨it'', t'', hp, hl⟩ := ih hr
      refine ⟨it'', t'', ?_, fun h => hl (Nat.lt_of_succ_lt_succ h)⟩
      simp only [pull, next, hf, hp, bind, Except.bind, head?_cons, tail_cons, take_succ_cons]

end

/-! ### The entries of one bucket -/

theorem sorted_pairwise (it : ClosestIter K V Out) (b : KBucket K V) : (it.sorted b).Pairwise fun x y =>
      it.target.distance (keyBytes x) ≤ it.target.distance (keyBytes y) := by
  have hs : (it.sorted b).Pairwise fun x y =>
      decide (it.target.distance (keyBytes x) ≤ it.target.distance (keyBytes y)) := by
    apply pairwise_mergeSort
    · intro x y _ hxy hyz
      exact decide_eq_true ((of_decide_eq_true hxy).trans (of_decide_eq_true hyz))
    · intro x y
      simpa using le_total _ _
  exact hs.imp of_decide_eq_true

variable [AsKeyBytes K]

theorem keys_sorted_perm {config : KBucketConfig}
    (hf : ∀ e, keyBytes (it.fmap e) = keyBytes e.1.key) (hs : it.bucketSize = config.bucketSize)
    {b : KBucket K V} (hb : b.WellFormed config) : ((it.sorted b).map keyBytes).Perm b.nodeKeys := by
  have ht : b.iter.take it.bucketSize = b.iter := by
    apply take_of_length_le
    rw [KBucket.iter, length_mapIdx, hs]
    exact hb.length_le
  have hn : b.iter.map Prod.fst = b.nodes := by
    apply ext_getElem (by simp [KBucket.iter])
    intro _ _ _
    simp [KBucket.iter]
  have hmap : ((b.iter.map it.fmap).map keyBytes) = b.nodeKeys := by
    rw [nodeKeys, ← hn, map_map, map_map]
    exact map_congr_left fun e _ => hf e
  rw [← hmap, sorted, ht]
  exact (mergeSort_perm _ _).map keyBytes

end ClosestIter

variable {now : Instant}

namespace KBucketsTable

theorem visit_eq_ok {t next : KBucketsTable K V} (hv : t.visit i now = .ok next) :
    (∃ applied, (t.buckets i).applyPending now = .ok (applied, next.buckets i)) ∧
      ∀ j, j ≠ i → next.buckets j = t.buckets j := by
  rw [visit] at hv
  cases ha : (t.buckets i).applyPending now with
  | error => simp only [ha, bind, Except.bind, reduceCtorEq] at hv
  | ok res =>
    simp only [ha, bind, Except.bind, Except.ok.injEq] at hv
    subst hv
    exact ⟨⟨res.1, by rw [setBucket_self]⟩, fun j hne => t.setBucket_of_ne hne res.2⟩

end KBucketsTable

namespace KBucket

variable {config : KBucketConfig}

theorem WellFormed.applyPending_cases {b next : KBucket K V}
    (hb : b.WellFormed config) {applied : Option (AppliedPending K V)}
    (ha : b.applyPending now = .ok (applied, next)) : next = b ∨ next.pending = none := by
  obtain ⟨a, rfl, -⟩ := hb.exists_twoLists
  rw [TwoLists.toBucket_applyPending] at ha
  cases ha
  rcases a.applyPending_cases config now with ⟨pend, rfl | rfl, heq⟩ | ⟨pend, -, -, heq⟩ |
    ⟨pend, oldest, rest, -, -, heq⟩
  · rw [heq]
    exact .inl rfl
  · rw [heq]
    exact .inr rfl
  all_goals
    rw [heq]
    exact .inr (by cases pend.status <;> rfl)

theorem WellFormed.applyPending_twice {b middle next : KBucket K V}
    (hb : b.WellFormed config) {now later : Instant} {first second : Option (AppliedPending K V)}
    (hf : b.applyPending now = .ok (first, middle)) (hs : middle.applyPending later = .ok (second, next)) :
    (∃ applied, b.applyPending now = .ok (applied, next)) ∨ ∃ applied, b.applyPending later = .ok (applied, next) := by
  rcases hb.applyPending_cases hf with rfl | hn
  · exact .inr ⟨second, hs⟩
  · rw [KBucket.applyPending, hn] at hs
    cases hs
    exact .inl ⟨first, hf⟩

end KBucket

theorem eq_of_ilog2_zero {a k l : KeyBytes} (hk : (a.distance k).ilog2 = some 0)
    (hl : (a.distance l).ilog2 = some 0) : k = l :=
  a.distance_injective (Distance.eq_of_ilog2_zero hk hl)

namespace KBucketsTable

variable [AsKeyBytes K] {localKey : K} {config : KBucketConfig} {taken : List (AppliedPending K V)}
  {t next : KBucketsTable K V}

theorem Inv.visit_zero (ht : Inv localKey config taken t)
    (hv : t.visit i now = .ok next) : (t.buckets 0).nodeKeys ⊆ (next.buckets 0).nodeKeys := by
  obtain ⟨⟨_, ha⟩, ho⟩ := visit_eq_ok hv
  by_cases hi : i = 0
  · subst hi
    intro k hk
    have hn : (t.buckets 0).pending = none := by
      cases hp : (t.buckets 0).pending with
      | none => rfl
      | some =>
        have hno := ht.nodup 0
        have hin := ht.index 0
        simp only [KBucket.keys, hp] at hno hin
        have heq := eq_of_ilog2_zero (hin k (mem_append_left _ hk)) (hin _ (mem_append_right _ (mem_singleton_self _)))
        exact absurd heq ((nodup_append.1 hno).2.2 k hk _ (mem_singleton_self _))
    simp only [applyPending, hn, Except.ok.injEq, Prod.mk.injEq] at ha
    rwa [← ha.2]
  · rw [ho 0 (Ne.symm hi)]
    exact List.Subset.refl _

end KBucketsTable

namespace ClosestIter

variable [AsKeyBytes K] [AsKeyBytes Out] {localKey : K} {config : KBucketConfig}
  {taken : List (AppliedPending K V)}

/-- What visiting a list of buckets yields, from one table to the other. -/
structure Collected (it : ClosestIter K V Out) (clock : Nat → Instant) (indices : List BucketIndex)
    (t last : KBucketsTable K V) (xs : List Out) : Prop where
  other : ∀ j, j ∉ indices → last.buckets j = t.buckets j
  applied : ∀ j ∈ indices, ∃ visit applied, (t.buckets j).applyPending (clock visit) = .ok (applied, last.buckets j)
  zero : (t.buckets 0).nodeKeys ⊆ (last.buckets 0).nodeKeys
  sorted : xs.Pairwise fun x y => it.target.distance (keyBytes x) ≤ it.target.distance (keyBytes y)
  mem_iff : ∀ k, k ∈ xs.map keyBytes ↔ ∃ i ∈ indices, k ∈ (last.buckets i).nodeKeys

theorem distance_le_of_ordered {tgt a k l : KeyBytes}
    (ho : ClosestBucketsIter.Ordered (a.distance tgt) i j) (hk : (a.distance k).ilog2 = some i.val)
    (hl : (a.distance l).ilog2 = some j.val) : tgt.distance k ≤ tgt.distance l := by
  rcases ho with ⟨rfl, rfl⟩ | ⟨-, hn⟩
  · rw [eq_of_ilog2_zero hk hl]
  · have hlt := hn _ _ hk hl
    rw [KeyBytes.distance_xor_distance, KeyBytes.distance_xor_distance] at hlt
    exact Nat.le_of_lt hlt

variable {t : KBucketsTable K V}

theorem collect_spec (hf : ∀ e, keyBytes (it.fmap e) = keyBytes e.1.key)
    (hs : it.bucketSize = config.bucketSize) (clock : Nat → Instant) {indices : List BucketIndex}
    (ho : indices.Pairwise (ClosestBucketsIter.Ordered ((keyBytes localKey).distance it.target)))
    (ht : KBucketsTable.Inv localKey config taken t) (visits : Nat) :
    ∃ xs last, collect it.sorted clock indices visits t = .ok (xs, last) ∧
      KBucketsTable.Inv localKey config taken last ∧ it.Collected clock indices t last xs := by
  induction indices generalizing t visits with
  | nil =>
    refine ⟨[], t, rfl, ht, fun _ _ => rfl, ?_, List.Subset.refl _, List.Pairwise.nil, ?_⟩
    · intro j hj
      cases hj
    · intro k
      simp
  | cons i indices ih =>
    rw [pairwise_cons] at ho
    obtain ⟨next, hv, hn⟩ := ht.visit i (clock visits)
    obtain ⟨xs, last, hc, hl, hxs⟩ := ih ho.2 hn (visits + 1)
    obtain ⟨⟨applied, ha⟩, hot⟩ := visit_eq_ok hv
    have hp := keys_sorted_perm hf hs (hn.wellFormed i)
    have hla : (next.buckets i).nodeKeys ⊆ (last.buckets i).nodeKeys := by
      by_cases hi : i ∈ indices
      · rcases ho.1 i hi with ⟨rfl, -⟩ | ⟨hne, -⟩
        · exact hxs.zero
        · exact absurd rfl hne
      · rw [hxs.other i hi]
        exact List.Subset.refl _
    refine ⟨it.sorted (next.buckets i) ++ xs, last,
      by simp [collect, hv, hc, bind, Except.bind], hl, ?_, ?_, ?_, ?_, ?_⟩
    · intro j hj
      rw [mem_cons, not_or] at hj
      rw [hxs.other j hj.2, hot j hj.1]
    · intro j hj
      by_cases hi : j ∈ indices
      · obtain ⟨visit, second, hse⟩ := hxs.applied j hi
        by_cases heq : j = i
        · subst heq
          rcases (ht.wellFormed j).applyPending_twice ha hse with ⟨r, hr⟩ | ⟨r, hr⟩
          all_goals exact ⟨_, r, hr⟩
        · rw [hot j heq] at hse
          exact ⟨visit, second, hse⟩
      · have heq : j = i := (mem_cons.1 hj).resolve_right hi
        subst heq
        rw [hxs.other j hi]
        exact ⟨_, applied, ha⟩
    · exact List.Subset.trans (ht.visit_zero hv) hxs.zero
    · rw [pairwise_append]
      refine ⟨it.sorted_pairwise _, hxs.sorted, fun x hx y hy => ?_⟩
      have hkx : keyBytes x ∈ (next.buckets i).keys := nodeKeys_subset_keys _ (hp.mem_iff.1 (mem_map_of_mem hx))
      obtain ⟨j, hj, hky⟩ := (hxs.mem_iff (keyBytes y)).1 (mem_map_of_mem hy)
      exact distance_le_of_ordered (ho.1 j hj) (hn.index i _ hkx) (hl.index j _ (nodeKeys_subset_keys _ hky))
    · intro k
      rw [map_append, mem_append, hp.mem_iff, hxs.mem_iff]
      constructor
      · rintro (hk | ⟨j, hj, hk⟩)
        · exact ⟨i, mem_cons_self, hla hk⟩
        · exact ⟨j, mem_cons_of_mem _ hj, hk⟩
      rintro ⟨j, hj, hk⟩
      by_cases hi : j ∈ indices
      · exact .inr ⟨j, hi, hk⟩
      have heq : j = i := (mem_cons.1 hj).resolve_right hi
      subst heq
      rw [hxs.other j hi] at hk
      exact .inl hk

/-- The items an iterator produces: the first ones of a list, however many are pulled, and at its end
the table it leaves behind. -/
def Produces (clock : Nat → Instant) (it : ClosestIter K V Out) (t : KBucketsTable K V) (xs : List Out)
    (last : KBucketsTable K V) : Prop :=
  ∀ items, ∃ it' t', it.pull clock items t = .ok (xs.take items, it', t') ∧ (xs.length < items → t' = last)

theorem closestIter_spec (ht : KBucketsTable.Inv localKey config taken t) (tgt : KeyBytes)
    (fmap : Node K V × NodeStatus → Out) (hf : ∀ e, keyBytes (fmap e) = keyBytes e.1.key)
    (clock : Nat → Instant) : ∃ xs last, Produces clock (t.closestIter tgt fmap) t xs last ∧
      xs.Pairwise (fun x y => tgt.distance (keyBytes x) ≤ tgt.distance (keyBytes y)) ∧
      (∀ k, k ∈ xs.map keyBytes ↔ ∃ i, k ∈ (last.buckets i).nodeKeys) ∧
      ∀ i, ∃ visit applied, (t.buckets i).applyPending (clock visit) = .ok (applied, last.buckets i) := by
  let it := t.closestIter tgt fmap
  have hall := ClosestBucketsIter.mem_remaining_new ((keyBytes t.localKey).distance tgt)
  have ho : it.bucketsIter.remaining.Pairwise
      (ClosestBucketsIter.Ordered ((keyBytes localKey).distance it.target)) := by
    rw [← ht.localKey_eq]
    exact ClosestBucketsIter.ordered_new _
  have hke : ∀ e, keyBytes (it.fmap e) = keyBytes e.1.key := hf
  obtain ⟨xs, last, hc, -, hxs⟩ := collect_spec hke ht.bucketSize_eq clock ho ht 0
  refine ⟨xs, last, fun items => ?_, hxs.sorted, fun k => ?_, fun i => hxs.applied i (hall i)⟩
  · exact Upcoming.pull ⟨xs, hc, rfl⟩ items
  · rw [hxs.mem_iff]
    exact ⟨fun ⟨i, _, hk⟩ => ⟨i, hk⟩, fun ⟨i, hk⟩ => ⟨i, hall i, hk⟩⟩

end ClosestIter

/-- For every table reached by accesses and every target, both iterators over the closest entries
produce a list in non-decreasing distance to the target, with exactly the keys that the table has when
the iterator ends; that table has in each bucket the pending node inserted if it was due at the visit. -/
theorem closest_order_complete [AsKeyBytes K] (localKey : K) (config : KBucketConfig)
    (ops : List (TableOp K V)) (target : KeyBytes) (clock : Nat → Instant) :
    ∃ outputs t, run KBucketsTable.exec (new localKey config) ops = .ok (outputs, t) ∧
      (∃ keys last, ClosestIter.Produces clock (t.closestKeys target) t keys last ∧
        keys.Pairwise (fun x y => target.distance (keyBytes x) ≤ target.distance (keyBytes y)) ∧
        (∀ k, k ∈ keys.map keyBytes ↔ ∃ i, k ∈ (last.buckets i).nodeKeys) ∧
        ∀ i, ∃ visit applied, (t.buckets i).applyPending (clock visit) = .ok (applied, last.buckets i)) ∧
      (∃ views last, ClosestIter.Produces clock (t.closest target) t views last ∧
        views.Pairwise (fun x y => target.distance (keyBytes x) ≤ target.distance (keyBytes y)) ∧
        (∀ k, k ∈ views.map keyBytes ↔ ∃ i, k ∈ (last.buckets i).nodeKeys) ∧
        ∀ i, ∃ visit applied, (t.buckets i).applyPending (clock visit) = .ok (applied, last.buckets i)) := by
  obtain ⟨outputs, t, hrun, ht⟩ := inv_run localKey config ops
  exact ⟨outputs, t, hrun, ClosestIter.closestIter_spec ht target (fun e => e.1.key) (fun _ => rfl) clock,
    ClosestIter.closestIter_spec ht target (fun e => (⟨e.1, e.2⟩ : EntryView K V)) (fun _ => rfl) clock⟩

end RustLibp2p.Kad
