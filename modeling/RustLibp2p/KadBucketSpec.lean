import Mathlib.Algebra.Order.Group.Multiset
import RustLibp2p.KadBucket
import RustLibp2p.Transition

/-! What a bucket is for: two lists of nodes, the disconnected and the connected ones, and at most one
pending node. A call lets nodes leave the lists and then puts at most one node at the end of one of them.
-/

namespace RustLibp2p.Kad
open List

/-- A node and the number of the call that gave it its place in its list. -/
structure Placed (K V : Type) where
  node : Node K V
  since : Nat

open Placed

structure TwoLists (K V : Type) where
  disconnected : List (Placed K V)
  connected : List (Placed K V)
  pending : Option (PendingNode K V)
  calls : Nat

inductive BucketOp (K V : Type) where
  | insert (node : Node K V) (status : NodeStatus)
  | update (key : K) (status : NodeStatus)
  | remove (key : K)
  | updatePending (status : NodeStatus)
  | removePending
  | applyPending

inductive BucketOutput (K V : Type) where
  | unit
  | insert (result : InsertResult K)
  | remove (removed : Option (Node K V × NodeStatus × Nat))
  | removePending (removed : Option (PendingNode K V))
  | applyPending (applied : Option (AppliedPending K V))

variable {K V : Type}

def Placed.hasKey [AsKeyBytes K] (key : K) (placed : Placed K V) : Bool := keyBytes placed.node.key = keyBytes key

namespace TwoLists

def empty : TwoLists K V := ⟨[], [], none, 0⟩

def size (a : TwoLists K V) : Nat := a.disconnected.length + a.connected.length

/-- The node becomes the most recently (dis)connected one. -/
def place (a : TwoLists K V) (node : Node K V) : NodeStatus → TwoLists K V
  | .connected => { a with connected := a.connected ++ [⟨node, a.calls⟩] }
  | .disconnected => { a with disconnected := a.disconnected ++ [⟨node, a.calls⟩] }

section

variable (config : KBucketConfig) (now : Instant) (a : TwoLists K V)

def insert (node : Node K V) (status : NodeStatus) : InsertResult K × TwoLists K V :=
  if config.bucketSize ≤ a.size then
    match status, a.disconnected, a.pending with
    | .connected, oldest :: _, none => (.pending oldest.node.key,
        { a with pending := some ⟨node, .connected, now + config.pendingTimeout⟩ })
    | _, _, _ => (.full, a)
  else (.inserted, a.place node status)

/-- Takes the node with the key out of its list, with its status and its place in the bucket. -/
def remove [AsKeyBytes K] (a : TwoLists K V) (key : K) : Option (Node K V × NodeStatus × Nat) × TwoLists K V :=
  match a.disconnected.findIdx? (hasKey key) with
  | some i => (a.disconnected[i]?.map fun placed => (placed.node, .disconnected, i),
      { a with disconnected := a.disconnected.eraseIdx i })
  | none =>
    match a.connected.findIdx? (hasKey key) with
    | some i => (a.connected[i]?.map fun placed => (placed.node, .connected, a.disconnected.length + i),
        { a with connected := a.connected.eraseIdx i })
    | none => (none, a)

/-- The node moves to the end of the list of its new status; when the first node of the bucket is
connected again, the pending node is dropped. -/
def update [AsKeyBytes K] (a : TwoLists K V) (key : K) (status : NodeStatus) : TwoLists K V :=
  match a.remove key with
  | (none, a) => a
  | (some (node, _, pos), a) =>
    (if pos = 0 ∧ status = .connected then { a with pending := none } else a).place node status

/-- The pending node takes the place of the least recently connected node among the disconnected ones;
with only connected nodes it is dropped. -/
def replaceFirst (a : TwoLists K V) (pending : PendingNode K V) : Option (AppliedPending K V) × TwoLists K V :=
  match a.disconnected with
  | [] => (none, a)
  | oldest :: rest => (some ⟨pending.node, some oldest.node⟩,
      { a with disconnected := rest }.place pending.node pending.status)

def applyDue (a : TwoLists K V) (pending : PendingNode K V) : Option (AppliedPending K V) × TwoLists K V :=
  if config.bucketSize ≤ a.size then a.replaceFirst pending
  else (some ⟨pending.node, none⟩, a.place pending.node pending.status)

def applyPending : Option (AppliedPending K V) × TwoLists K V :=
  match a.pending with
  | none => (none, a)
  | some pending =>
    if pending.replace ≤ now then { a with pending := none }.applyDue config pending
    else (none, a)

end

/-- What a call does to the lists and the pending node. -/
def act [AsKeyBytes K] (config : KBucketConfig) (a : TwoLists K V) (call : BucketOp K V × Instant) :
    BucketOutput K V × TwoLists K V :=
  match call.1 with
  | .insert node status => (a.insert config call.2 node status).map .insert id
  | .update key status => (.unit, a.update key status)
  | .remove key => (a.remove key).map .remove id
  | .updatePending status =>
    (.unit, { a with pending := a.pending.map fun pending => { pending with status := status } })
  | .removePending => (.removePending a.pending, { a with pending := none })
  | .applyPending => (a.applyPending config call.2).map .applyPending id

def exec [AsKeyBytes K] (config : KBucketConfig) (a : TwoLists K V) (call : BucketOp K V × Instant) :
    BucketOutput K V × TwoLists K V :=
  ((a.act config call).1, { (a.act config call).2 with calls := a.calls + 1 })

/-! ### What a call can do to the lists -/

/-- Nodes leave the lists, and at most one is then put into a free place at the end of one. -/
inductive Moves (config : KBucketConfig) (a : TwoLists K V) : TwoLists K V → Prop where
  | leave (rest : TwoLists K V) (hdisconnected : rest.disconnected.Sublist a.disconnected)
      (hconnected : rest.connected.Sublist a.connected) (hcalls : rest.calls = a.calls) : Moves config a rest
  | place (rest : TwoLists K V) (hdisconnected : rest.disconnected.Sublist a.disconnected)
      (hconnected : rest.connected.Sublist a.connected) (hcalls : rest.calls = a.calls)
      (hroom : rest.size < config.bucketSize) (node : Node K V) (status : NodeStatus) :
      Moves config a (rest.place node status)

variable {config : KBucketConfig}

theorem size_place (a : TwoLists K V) (node : Node K V) (status : NodeStatus) :
    (a.place node status).size = a.size + 1 := by
  cases status with
  | connected => simp [place, size, Nat.add_assoc]
  | disconnected => simp [place, size, Nat.add_right_comm]

theorem moves_insert (a : TwoLists K V) (now : Instant) (node : Node K V) (status : NodeStatus) :
    Moves config a (a.insert config now node status).2 := by
  unfold insert
  by_cases hf : config.bucketSize ≤ a.size
  · rw [if_pos hf]
    split <;> exact .leave _ (.refl _) (.refl _) rfl
  · rw [if_neg hf]
    exact .place a (.refl _) (.refl _) rfl (Nat.not_le.1 hf) node status

/-- The nodes stay, the node takes a free place, or it takes the place of the first disconnected node. -/
theorem applyPending_cases (config : KBucketConfig) (a : TwoLists K V) (now : Instant) :
    (∃ pending, (pending = a.pending ∨ pending = none) ∧
      a.applyPending config now = (none, { a with pending })) ∨
    (∃ pending, a.pending = some pending ∧ a.size < config.bucketSize ∧
      a.applyPending config now = (some ⟨pending.node, none⟩,
        { a with pending := none }.place pending.node pending.status)) ∨
    ∃ pending oldest rest, a.pending = some pending ∧ a.disconnected = oldest :: rest ∧
      a.applyPending config now = (some ⟨pending.node, some oldest.node⟩,
        { a with disconnected := rest, pending := none }.place pending.node pending.status) := by
  obtain ⟨disconnected, connected, pending, calls⟩ := a
  unfold applyPending applyDue replaceFirst
  cases pending with
  | none => exact .inl ⟨none, .inl rfl, rfl⟩
  | some pending =>
    by_cases hd : pending.replace ≤ now
    · simp only [if_pos hd]
      by_cases hf : config.bucketSize ≤ (⟨disconnected, connected, none, calls⟩ : TwoLists K V).size
      · rw [if_pos hf]
        cases disconnected with
        | nil => exact .inl ⟨none, .inr rfl, rfl⟩
        | cons oldest rest => exact .inr (.inr ⟨pending, oldest, rest, rfl, rfl, rfl⟩)
      · rw [if_neg hf]
        exact .inr (.inl ⟨pending, rfl, Nat.not_le.1 hf, rfl⟩)
    · simp only [if_neg hd]
      exact .inl ⟨some pending, .inl rfl, rfl⟩

theorem moves_applyPending {a : TwoLists K V} (hs : a.size ≤ config.bucketSize) (now : Instant) :
    Moves config a (a.applyPending config now).2 := by
  rcases a.applyPending_cases config now with ⟨pending, -, heq⟩ | ⟨pending, -, hr, heq⟩ |
    ⟨pending, oldest, rest, -, hd, heq⟩
  · rw [heq]
    exact .leave _ (.refl _) (.refl _) rfl
  · rw [heq]
    exact Moves.place (a := a) { a with pending := none } (.refl _) (.refl _) rfl hr _ _
  rw [heq]
  refine Moves.place (a := a) { a with disconnected := rest, pending := none } ?_ (.refl _) rfl ?_ _ _
  · rw [hd]
    exact sublist_cons_self oldest rest
  · rw [size, hd, length_cons] at hs
    show rest.length + a.connected.length < config.bucketSize
    omega

theorem Moves.size_le {a b : TwoLists K V} (hs : a.size ≤ config.bucketSize)
    (hm : Moves config a b) : b.size ≤ config.bucketSize := by
  cases hm with
  | leave rest hd hc =>
    exact (Nat.add_le_add hd.length_le hc.length_le).trans hs
  | place rest hd hc hca hr node status => exact (rest.size_place node status).trans_le hr

variable {key : K}

section Keyed

variable [AsKeyBytes K]

theorem remove_cases (a : TwoLists K V) (key : K) :
    (a.disconnected.findIdx? (hasKey key) = none ∧ a.connected.findIdx? (hasKey key) = none ∧
      a.remove key = (none, a)) ∨
    (∃ i placed, a.disconnected.findIdx? (hasKey key) = some i ∧ a.disconnected[i]? = some placed ∧
      a.remove key = (some (placed.node, .disconnected, i), { a with disconnected := a.disconnected.eraseIdx i })) ∨
    ∃ i placed, a.disconnected.findIdx? (hasKey key) = none ∧
      a.connected.findIdx? (hasKey key) = some i ∧ a.connected[i]? = some placed ∧
      a.remove key = (some (placed.node, .connected, a.disconnected.length + i),
        { a with connected := a.connected.eraseIdx i }) := by
  unfold remove
  cases hd : a.disconnected.findIdx? (hasKey key) with
  | some i =>
    have hg := getElem?_eq_getElem (findIdx?_eq_some_iff_getElem.1 hd).1
    exact .inr (.inl ⟨i, _, rfl, hg, by simp only [hg, Option.map_some]⟩)
  | none =>
    cases hc : a.connected.findIdx? (hasKey key) with
    | some i =>
      have hg := getElem?_eq_getElem (findIdx?_eq_some_iff_getElem.1 hc).1
      exact .inr (.inr ⟨i, _, rfl, rfl, hg, by simp only [hg, Option.map_some]⟩)
    | none => exact .inl ⟨rfl, rfl, rfl⟩

theorem remove_sublist (a : TwoLists K V) (key : K) : (a.remove key).2.disconnected.Sublist a.disconnected ∧
      (a.remove key).2.connected.Sublist a.connected ∧ (a.remove key).2.calls = a.calls := by
  rcases a.remove_cases key with ⟨-, -, heq⟩ | ⟨i, placed, -, -, heq⟩ | ⟨i, placed, -, -, -, heq⟩
  · rw [heq]
    exact ⟨.refl _, .refl _, rfl⟩
  · rw [heq]
    exact ⟨eraseIdx_sublist _ i, .refl _, rfl⟩
  · rw [heq]
    exact ⟨.refl _, eraseIdx_sublist _ i, rfl⟩

variable {a : TwoLists K V}

theorem size_remove_of_some {removed : Node K V × NodeStatus × Nat}
    (hr : (a.remove key).1 = some removed) : (a.remove key).2.size + 1 = a.size := by
  rcases a.remove_cases key with ⟨-, -, heq⟩ | ⟨i, placed, -, hg, heq⟩ | ⟨i, placed, -, -, hg, heq⟩
  · rw [heq] at hr
    cases hr
  all_goals
    obtain ⟨hi, -⟩ := List.getElem?_eq_some_iff.1 hg
    simp only [heq, size, length_eraseIdx_of_lt hi]
    omega

theorem moves_update (hs : a.size ≤ config.bucketSize) (key : K)
    (status : NodeStatus) : Moves config a (a.update key status) := by
  obtain ⟨hd, hc, hca⟩ := a.remove_sublist key
  unfold update
  rcases hr : a.remove key with ⟨removed, rest⟩
  rw [hr] at hd hc hca
  cases removed with
  | none => exact .leave rest hd hc hca
  | some removed =>
    obtain ⟨node, _, pos⟩ := removed
    have hro : rest.size < config.bucketSize := by
      have hsi := size_remove_of_some (congrArg Prod.fst hr)
      rw [hr] at hsi
      exact Nat.lt_of_lt_of_le (Nat.lt_of_lt_of_eq (Nat.lt_succ_self _) hsi) hs
    by_cases hf : pos = 0 ∧ status = .connected
    · simp only [if_pos hf]
      exact .place { rest with pending := none } hd hc hca hro node status
    · simp only [if_neg hf]
      exact .place rest hd hc hca hro node status

theorem moves_act (hs : a.size ≤ config.bucketSize)
    (call : BucketOp K V × Instant) : Moves config a (a.act config call).2 := by
  obtain ⟨op, now⟩ := call
  cases op with
  | insert node status => exact a.moves_insert now node status
  | update key status => exact moves_update hs key status
  | remove key =>
    obtain ⟨hd, hc, hca⟩ := a.remove_sublist key
    exact .leave _ hd hc hca
  | updatePending status | removePending => exact .leave _ (.refl _) (.refl _) rfl
  | applyPending => exact moves_applyPending hs now

end Keyed

/-- Nodes in the order of the calls that placed them, all before a given call. -/
def Recency (bound : Nat) (xs : List (Placed K V)) : Prop :=
  xs.Pairwise (fun x y => x.since < y.since) ∧ ∀ x ∈ xs, x.since < bound

variable {bound : Nat}

theorem Recency.sublist {xs ys : List (Placed K V)} (hys : Recency bound ys)
    (hsub : xs.Sublist ys) : Recency bound xs :=
  ⟨hys.1.sublist hsub, fun x hx => hys.2 x (hsub.subset hx)⟩

variable {xs : List (Placed K V)}

theorem Recency.succ (hxs : Recency bound xs) : Recency (bound + 1) xs :=
  ⟨hxs.1, fun x hx => Nat.lt_succ_of_lt (hxs.2 x hx)⟩

theorem Recency.append (hxs : Recency bound xs) (node : Node K V) : Recency (bound + 1) (xs ++ [⟨node, bound⟩]) := by
  refine ⟨pairwise_append.2 ⟨hxs.1, pairwise_singleton _ _, ?_⟩, ?_⟩
  · intro x hx _ hy
    rw [mem_singleton.1 hy]
    exact hxs.2 x hx
  intro x hx
  rcases mem_append.1 hx with hx | hx
  · exact Nat.lt_succ_of_lt (hxs.2 x hx)
  · rw [mem_singleton.1 hx]
    exact Nat.lt_succ_self bound

/-- Both lists run from the least to the most recently (dis)connected node and fit the bucket. -/
structure Valid (config : KBucketConfig) (a : TwoLists K V) : Prop where
  size_le : a.size ≤ config.bucketSize
  disconnected : Recency a.calls a.disconnected
  connected : Recency a.calls a.connected

theorem valid_empty : Valid config (empty : TwoLists K V) := ⟨Nat.zero_le _, ⟨.nil, nofun⟩, ⟨.nil, nofun⟩⟩

theorem Valid.moves {a b : TwoLists K V} (ha : Valid config a) (hm : Moves config a b) :
    Valid config { b with calls := a.calls + 1 } := by
  have hs := hm.size_le ha.size_le
  cases hm with
  | leave rest hd hc =>
    exact ⟨hs, (ha.disconnected.sublist hd).succ, (ha.connected.sublist hc).succ⟩
  | place rest hd hc hca hr node status =>
    have hdi := ha.disconnected.sublist hd
    have hco := ha.connected.sublist hc
    cases status with
    | connected => exact ⟨hs, hdi.succ, hca ▸ hco.append node⟩
    | disconnected => exact ⟨hs, hca ▸ hdi.append node, hco.succ⟩

theorem Valid.exec [AsKeyBytes K] {a : TwoLists K V} (ha : Valid config a)
    (call : BucketOp K V × Instant) : Valid config (a.exec config call).2 :=
  ha.moves (moves_act ha.size_le call)

section Keys

variable [AsKeyBytes K]

def keysOf (xs : List (Placed K V)) : Multiset KeyBytes := ↑(xs.map fun placed => keyBytes placed.node.key)

def nodeKeys (a : TwoLists K V) : Multiset KeyBytes := keysOf a.disconnected + keysOf a.connected

def pendingKeys (a : TwoLists K V) : Multiset KeyBytes :=
  ↑(a.pending.toList.map fun pending => keyBytes pending.node.key)

/-- The keys of the nodes and of the pending node. -/
def keys (a : TwoLists K V) : Multiset KeyBytes := a.nodeKeys + a.pendingKeys

theorem keysOf_append (xs : List (Placed K V)) (placed : Placed K V) :
    keysOf (xs ++ [placed]) = keyBytes placed.node.key ::ₘ keysOf xs := by
  simp [keysOf, ← Multiset.coe_add, Multiset.add_comm _ {_}]

theorem keysOf_eraseIdx {i : Nat} {placed : Placed K V}
    (hg : xs[i]? = some placed) : keysOf xs = keyBytes placed.node.key ::ₘ keysOf (xs.eraseIdx i) := by
  obtain ⟨hi, rfl⟩ := List.getElem?_eq_some_iff.1 hg
  exact Multiset.coe_eq_coe.2 ((getElem_cons_eraseIdx_perm hi).symm.map _)

section

variable (a : TwoLists K V) (node : Node K V) (status : NodeStatus)
include a node status

theorem nodeKeys_place : (a.place node status).nodeKeys = keyBytes node.key ::ₘ a.nodeKeys := by
  cases status with
  | connected => simp only [nodeKeys, place, keysOf_append, Multiset.add_cons]
  | disconnected => simp only [nodeKeys, place, keysOf_append, Multiset.cons_add]

theorem pendingKeys_place : (a.place node status).pendingKeys = a.pendingKeys := by cases status <;> rfl

theorem keys_place : (a.place node status).keys = keyBytes node.key ::ₘ a.keys := by
  rw [keys, keys, nodeKeys_place, pendingKeys_place, Multiset.cons_add]

end

theorem keys_of_pending {a : TwoLists K V} {pend : PendingNode K V}
    (hp : a.pending = some pend) : a.keys = keyBytes pend.node.key ::ₘ a.nodeKeys := by
  simp [keys, pendingKeys, hp, Multiset.add_comm _ {_}]

section

variable (a : TwoLists K V)

theorem keys_drop_pending : ({ a with pending := none } : TwoLists K V).keys = a.nodeKeys := by
  simp only [keys, pendingKeys, Option.toList_none, map_nil, Multiset.coe_nil, Multiset.add_zero]
  rfl

theorem nodeKeys_le_keys : a.nodeKeys ≤ a.keys := Multiset.le_add_right _ _

theorem nodeKeys_remove {a : TwoLists K V} {node : Node K V} {status : NodeStatus} {pos : Nat}
    (hr : (a.remove key).1 = some (node, status, pos)) :
    keyBytes node.key = keyBytes key ∧ a.nodeKeys = keyBytes key ::ₘ (a.remove key).2.nodeKeys ∧
      (a.remove key).2.pending = a.pending := by
  rcases a.remove_cases key with ⟨-, -, heq⟩ | ⟨i, placed, hf, hg, heq⟩ | ⟨i, placed, -, hf, hg, heq⟩
  · rw [heq] at hr
    cases hr
  all_goals
    rw [heq] at hr ⊢
    cases hr
    obtain ⟨_, rfl⟩ := List.getElem?_eq_some_iff.1 hg
    have hk := of_decide_eq_true (findIdx?_eq_some_iff_getElem.1 hf).2.1
    refine ⟨hk, ?_, rfl⟩
    simp only [nodeKeys, keysOf_eraseIdx hg, hk, Multiset.add_cons, Multiset.cons_add]

theorem remove_of_none {a : TwoLists K V} (hr : (a.remove key).1 = none) :
    a.remove key = (none, a) ∧ keyBytes key ∉ a.nodeKeys := by
  rcases a.remove_cases key with ⟨hd, hc, heq⟩ | ⟨i, placed, -, -, heq⟩ | ⟨i, placed, -, -, -, heq⟩
  · refine ⟨heq, ?_⟩
    rw [findIdx?_eq_none_iff] at hd hc
    simp only [nodeKeys, keysOf, Multiset.mem_add, Multiset.mem_coe, mem_map]
    rintro (⟨placed, hmem, hk⟩ | ⟨placed, hmem, hk⟩)
    · exact absurd hk (of_decide_eq_false (hd placed hmem))
    · exact absurd hk (of_decide_eq_false (hc placed hmem))
  all_goals
    rw [heq] at hr
    cases hr

theorem nodeKeys_remove_le (key : K) :
    (a.remove key).2.nodeKeys ≤ a.nodeKeys ∧ (a.remove key).2.pendingKeys = a.pendingKeys := by
  rcases hr : (a.remove key).1 with - | ⟨_, _, _⟩
  · rw [(remove_of_none hr).1]
    exact ⟨le_refl _, rfl⟩
  · obtain ⟨-, hk, hp⟩ := nodeKeys_remove hr
    rw [hk, pendingKeys, hp]
    exact ⟨Multiset.le_cons_self _ _, rfl⟩

theorem nodeKeys_update (key : K) (status : NodeStatus) :
    (a.update key status).nodeKeys = a.nodeKeys ∧ (a.update key status).pendingKeys ≤ a.pendingKeys := by
  unfold update
  rcases hr : a.remove key with ⟨- | ⟨_, _, _⟩, _⟩
  · have hre := (remove_of_none (congrArg Prod.fst hr)).1
    cases hr.symm.trans hre
    exact ⟨rfl, le_refl _⟩
  obtain ⟨hk, hke, hp⟩ := nodeKeys_remove (congrArg Prod.fst hr)
  rw [hr] at hke hp
  rw [nodeKeys_place, pendingKeys_place, hke, hk]
  split_ifs
  · exact ⟨rfl, Multiset.zero_le _⟩
  · rw [pendingKeys, pendingKeys, hp]
    exact ⟨rfl, le_refl _⟩

theorem keys_applyPending_le (now : Instant) : (a.applyPending config now).2.keys ≤ a.keys := by
  rcases a.applyPending_cases config now with ⟨pend, hp, heq⟩ | ⟨pend, hp, -, heq⟩ | ⟨pend, oldest, rest, hp, hd, heq⟩
  · rw [heq]
    rcases hp with rfl | rfl
    · exact le_refl a.keys
    · exact a.keys_drop_pending.trans_le a.nodeKeys_le_keys
  · rw [heq, keys_place, keys_drop_pending, keys_of_pending hp]
  have he : keysOf a.disconnected = keyBytes oldest.node.key ::ₘ keysOf rest := by
    rw [hd]
    rfl
  rw [heq, keys_place, keys_of_pending hp]
  apply Multiset.cons_le_cons
  rw [nodeKeys, he, Multiset.cons_add]
  exact ({ a with disconnected := rest } : TwoLists K V).keys_drop_pending.trans_le (Multiset.le_cons_self _ _)

end

theorem nodeKeys_insert_le (config : KBucketConfig) (a : TwoLists K V) (now : Instant) (node : Node K V)
    (status : NodeStatus) : (a.insert config now node status).2.nodeKeys ≤ keyBytes node.key ::ₘ a.nodeKeys ∧
      (a.insert config now node status).2.keys ≤ keyBytes node.key ::ₘ a.keys := by
  unfold insert
  by_cases hf : config.bucketSize ≤ a.size
  · rw [if_pos hf]
    split
    · refine ⟨Multiset.le_cons_self _ _, ?_⟩
      rw [keys_of_pending rfl]
      apply Multiset.cons_le_cons
      exact a.nodeKeys_le_keys
    · exact ⟨Multiset.le_cons_self _ _, Multiset.le_cons_self _ _⟩
  · rw [if_neg hf, nodeKeys_place, keys_place]
    exact ⟨le_refl _, le_refl _⟩

theorem keys_exec_le (config : KBucketConfig) (a : TwoLists K V) (call : BucketOp K V × Instant) :
    (a.exec config call).2.keys ≤ a.keys ∨ ∃ node status, call.1 = .insert node status ∧
      (a.exec config call).2.keys ≤ keyBytes node.key ::ₘ a.keys := by
  obtain ⟨op, now⟩ := call
  cases op with
  | insert node status => exact .inr ⟨node, status, rfl, (a.nodeKeys_insert_le config now node status).2⟩
  | update key status =>
    obtain ⟨hn, hp⟩ := a.nodeKeys_update key status
    exact .inl (add_le_add hn.le hp)
  | remove key =>
    obtain ⟨hn, hp⟩ := a.nodeKeys_remove_le key
    exact .inl (add_le_add hn hp.le)
  | updatePending =>
    refine .inl (le_of_eq ?_)
    simp only [exec, act, keys, nodeKeys, pendingKeys]
    cases a.pending <;> rfl
  | removePending => exact .inl (a.keys_drop_pending.trans_le a.nodeKeys_le_keys)
  | applyPending => exact .inl (a.keys_applyPending_le now)

end Keys
end TwoLists

/-! A bucket represents the two lists of its specification. Every call does to the vector what it does to
the lists, with the same result and without a panic. -/
open Transition KBucket TwoLists

def KBucket.exec [AsKeyBytes K] (b : KBucket K V) (call : BucketOp K V × Instant) :
    Except Panic (BucketOutput K V × KBucket K V) :=
  match call.1 with
  | .insert node status => (b.insert call.2 node status).map fun (r, b) => (.insert r, b)
  | .update key status => (b.update call.2 key status).map fun b => (.unit, b)
  | .remove key => (b.remove key).map fun (r, b) => (.remove r, b)
  | .updatePending status => .ok (.unit, b.updatePending status)
  | .removePending => .ok (.removePending b.removePending.1, b.removePending.2)
  | .applyPending => (b.applyPending call.2).map fun (r, b) => (.applyPending r, b)

theorem vecRemove_of_lt {α : Type} {xs : List α} {i : Nat} (hi : i < xs.length) :
    vecRemove xs i = .ok (xs[i], xs.eraseIdx i) := by
  rw [vecRemove, getElem?_eq_getElem hi]

theorem insertIdx_append_length {α : Type} (xs ys : List α) (x : α) :
    (xs ++ ys).insertIdx xs.length x = xs ++ x :: ys := by
  induction xs with
  | nil => rfl
  | cons head xs ih => simp [ih]

namespace TwoLists

/-- The bucket that represents the two lists: the disconnected nodes first, the split index at the
first connected node. -/
def toBucket (config : KBucketConfig) (a : TwoLists K V) : KBucket K V where
  nodes := (a.disconnected ++ a.connected).map node
  capacity := config.bucketSize
  firstConnectedPos := if a.connected = [] then none else some a.disconnected.length
  pending := a.pending
  pendingTimeout := config.pendingTimeout

variable (config : KBucketConfig)

theorem length_toBucket_nodes (a : TwoLists K V) : (a.toBucket config).nodes.length = a.size := by simp [toBucket, size]

theorem status_toBucket (a : TwoLists K V) (pos : Nat) : (a.toBucket config).status pos =
      if a.connected ≠ [] ∧ a.disconnected.length ≤ pos then .connected else .disconnected := by
  unfold status toBucket
  by_cases hnil : a.connected = []
  all_goals simp [hnil]

variable {a : TwoLists K V}

theorem toBucket_insert_of_room (hr : a.size < config.bucketSize)
    (now : Instant) (node : Node K V) (stat : NodeStatus) :
    (a.toBucket config).insert now node stat = .ok (.inserted, (a.place node stat).toBucket config) := by
  have hnot : ¬(a.toBucket config).capacity ≤ (a.toBucket config).nodes.length := by
    rw [length_toBucket_nodes]
    exact Nat.not_le.2 hr
  cases stat with
  | connected =>
    rw [KBucket.insert, if_neg hnot]
    by_cases hnil : a.connected = []
    all_goals simp [toBucket, place, hnil]
  | disconnected =>
    rw [KBucket.insert, if_neg hnot]
    by_cases hnil : a.connected = []
    · simp [toBucket, place, hnil]
    have hi : (List.map Placed.node a.disconnected ++ List.map Placed.node a.connected).insertIdx
        a.disconnected.length node =
          List.map Placed.node a.disconnected ++ node :: List.map Placed.node a.connected := by
      simpa using insertIdx_append_length (a.disconnected.map Placed.node) (a.connected.map Placed.node) node
    simp [toBucket, place, hnil, vecInsert, bind, Except.bind, hi]

theorem toBucket_insert (a : TwoLists K V) (now : Instant) (node : Node K V) (stat : NodeStatus) :
    (a.toBucket config).insert now node stat =
      .ok ((a.insert config now node stat).1, (a.insert config now node stat).2.toBucket config) := by
  by_cases hf : config.bucketSize ≤ a.size
  · have hle : (a.toBucket config).capacity ≤ (a.toBucket config).nodes.length := by
      rw [length_toBucket_nodes]
      exact hf
    unfold insert
    rw [if_pos hf]
    cases stat with
    | disconnected => rw [KBucket.insert, if_pos hle]
    | connected =>
      rw [KBucket.insert, if_pos hle]
      obtain ⟨disconnected, connected, pend, _⟩ := a
      cases disconnected with
      | nil =>
        have hc : connected ≠ [] := by
          rintro rfl
          exact absurd hf (Nat.not_le.2 config.bucketSize_pos)
        simp [toBucket, hc]
      | cons =>
        cases pend with
        | some => simp [toBucket]
        | none =>  by_cases hnil : connected = [] <;> simp [toBucket, hnil]
  · rw [toBucket_insert_of_room config (Nat.not_le.1 hf)]
    unfold insert
    rw [if_neg hf]

theorem toBucket_replaceFirst (hf : config.bucketSize ≤ a.size) (pend : PendingNode K V) :
    (a.toBucket config).replaceFirst pend = .ok ((a.replaceFirst pend).1, (a.replaceFirst pend).2.toBucket config) := by
  obtain ⟨disconnected, connected, waiting, calls⟩ := a
  cases disconnected with
  | nil =>
    have hc : connected ≠ [] := by
      rintro rfl
      exact absurd hf (Nat.not_le.2 config.bucketSize_pos)
    have hs : (toBucket config ⟨[], connected, waiting, calls⟩).status 0 = .connected := by
      rw [status_toBucket, if_pos ⟨hc, Nat.zero_le _⟩]
    rw [KBucket.replaceFirst, if_pos hs]
    rfl
  | cons oldest rest =>
    have hs : (toBucket config ⟨oldest :: rest, connected, waiting, calls⟩).status 0 ≠ .connected := by
      rw [status_toBucket, if_neg (by simp)]
      exact NodeStatus.noConfusion
    have hfi : (toBucket config ⟨oldest :: rest, connected, waiting, calls⟩).firstConnectedPos ≠ some 0 := by
      by_cases hnil : connected = [] <;> simp [toBucket, hnil]
    rw [KBucket.replaceFirst, if_neg hs, if_neg hfi]
    obtain ⟨node, stat, _⟩ := pend
    cases stat with
    | connected =>
      by_cases hnil : connected = []
      all_goals simp [toBucket, replaceFirst, hnil, vecRemove, bind, Except.bind, place]
    | disconnected =>
      by_cases hnil : connected = []
      · simp [toBucket, replaceFirst, hnil, vecRemove, bind, Except.bind, place]
      · have hi := insertIdx_append_length (rest.map Placed.node) (connected.map Placed.node) node
        rw [length_map] at hi
        simp [toBucket, replaceFirst, hnil, vecRemove, bind, Except.bind, place, vecInsert, checkedPred, hi]

theorem toBucket_applyDue (a : TwoLists K V) (now : Instant) (pend : PendingNode K V) :
    (a.toBucket config).applyDue now pend =
      .ok ((a.applyDue config pend).1, (a.applyDue config pend).2.toBucket config) := by
  have hlen := a.length_toBucket_nodes config
  rw [KBucket.applyDue, applyDue, hlen]
  by_cases hf : config.bucketSize ≤ a.size
  · rw [if_pos hf, ← toBucket_replaceFirst config hf]
    exact if_pos hf
  · rw [if_neg hf, toBucket_insert_of_room config (Nat.not_le.1 hf)]
    exact if_neg hf

theorem toBucket_applyPending (a : TwoLists K V) (now : Instant) : (a.toBucket config).applyPending now =
      .ok ((a.applyPending config now).1, (a.applyPending config now).2.toBucket config) := by
  obtain ⟨disconnected, connected, pend, calls⟩ := a
  cases pend with
  | none => rfl
  | some pend =>
    rw [KBucket.applyPending, applyPending]
    by_cases hd : pend.replace ≤ now
    · simp only [toBucket, hd, if_true]
      exact toBucket_applyDue config ⟨disconnected, connected, none, calls⟩ now pend
    · simp only [toBucket, hd, if_false]

theorem toBucket_iter (a : TwoLists K V) : (a.toBucket config).iter =
    a.disconnected.map (fun placed => (placed.node, .disconnected)) ++
      a.connected.map (fun placed => (placed.node, .connected)) := by
  rw [KBucket.iter, toBucket, map_append, mapIdx_append]
  congr 1
  · apply ext_getElem (by simp)
    intro pos _ hpos
    have hs := a.status_toBucket config pos
    rw [if_neg (by simp at hpos; omega)] at hs
    simp only [getElem_mapIdx, getElem_map, Prod.mk.injEq, true_and]
    exact hs
  · apply ext_getElem (by simp)
    intro pos _ hpos
    have hne : a.connected ≠ [] := ne_nil_of_length_pos (by simp at hpos; omega)
    have hs := a.status_toBucket config (pos + a.disconnected.length)
    rw [if_pos ⟨hne, Nat.le_add_left _ _⟩] at hs
    simp only [getElem_mapIdx, getElem_map, length_map, Prod.mk.injEq, true_and]
    exact hs

section Keyed

variable [AsKeyBytes K]

theorem position_toBucket (a : TwoLists K V) (key : K) : (a.toBucket config).position key =
      (a.disconnected.findIdx? (hasKey key)).or
        ((a.connected.findIdx? (hasKey key)).map (· + a.disconnected.length)) := by
  have hm : ((fun node : Node K V => decide (keyBytes node.key = keyBytes key)) ∘ node) = hasKey key := rfl
  rw [position, toBucket, findIdx?_map, hm, findIdx?_append]

theorem toBucket_remove (a : TwoLists K V) (key : K) : (a.toBucket config).remove key =
      .ok ((a.remove key).1, (a.remove key).2.toBucket config) := by
  rw [KBucket.remove, position_toBucket]
  have hlen := a.length_toBucket_nodes config
  rw [size] at hlen
  rcases a.remove_cases key with ⟨hd, hc, heq⟩ | ⟨i, placed, hd, hg, heq⟩ | ⟨i, placed, hd, hc, hg, heq⟩
  · simp only [hd, hc, heq, Option.none_or, Option.map_none]
  · obtain ⟨hi, rfl⟩ := List.getElem?_eq_some_iff.1 hg
    have hs : (a.toBucket config).status i = .disconnected := by
      rw [status_toBucket, if_neg]
      rintro ⟨-, _⟩
      omega
    have hr : vecRemove (a.toBucket config).nodes i =
        .ok (a.disconnected[i].node, (a.disconnected.eraseIdx i ++ a.connected).map node) := by
      rw [vecRemove_of_lt (by omega)]
      simp only [toBucket, getElem_map, getElem_append_left hi, eraseIdx_map, eraseIdx_append_of_lt_length hi]
    simp only [hd, heq, Option.some_or, hs, hr, bind, Except.bind]
    by_cases hnil : a.connected = []
    · simp [toBucket, hnil]
    · have hpos : a.disconnected.length ≠ 0 := by omega
      simp [toBucket, hnil, checkedPred, hpos, length_eraseIdx_of_lt hi]
  · obtain ⟨hi, rfl⟩ := List.getElem?_eq_some_iff.1 hg
    have hne : a.connected ≠ [] := ne_nil_of_length_pos (by omega)
    have hs : (a.toBucket config).status (i + a.disconnected.length) = .connected := by
      rw [status_toBucket, if_pos ⟨hne, by omega⟩]
    have hr : vecRemove (a.toBucket config).nodes (i + a.disconnected.length) =
        .ok (a.connected[i].node, (a.disconnected ++ a.connected.eraseIdx i).map node) := by
      rw [vecRemove_of_lt (by omega)]
      have he : (a.disconnected ++ a.connected).eraseIdx (i + a.disconnected.length) =
          a.disconnected ++ a.connected.eraseIdx i := by
        rw [eraseIdx_append_of_length_le (by omega), Nat.add_sub_cancel]
      simp only [toBucket, eraseIdx_map, he, getElem_map]
      rw [getElem_append_right (by omega)]
      simp
    have hf : (a.toBucket config).firstConnectedPos = some a.disconnected.length := by rw [toBucket, if_neg hne]
    -- The split index is given up exactly when the node was the last connected one.
    have hl : some a.disconnected.length = some (i + a.disconnected.length) ∧
        i + a.disconnected.length = ((a.disconnected ++ a.connected.eraseIdx i).map node).length ↔
        a.connected.eraseIdx i = [] := by
      rw [← length_eq_zero_iff, length_map, length_append, length_eraseIdx_of_lt hi, Option.some.injEq]
      omega
    simp only [hd, hc, heq, Option.none_or, Option.map_some, hs, hr, bind, Except.bind, hf, hl]
    by_cases hem : a.connected.eraseIdx i = []
    all_goals simp [toBucket, hem, Nat.add_comm]

theorem toBucket_update (hs : a.size ≤ config.bucketSize) (now : Instant) (key : K) (stat : NodeStatus) :
    (a.toBucket config).update now key stat = .ok ((a.update key stat).toBucket config) := by
  rw [KBucket.update, toBucket_remove, update]
  rcases hr : a.remove key with ⟨removed, rest⟩
  cases removed with
  | none => rfl
  | some removed =>
    obtain ⟨_, _, pos⟩ := removed
    have hro : rest.size + 1 = a.size := by
      have hsi := size_remove_of_some (congrArg Prod.fst hr)
      rwa [hr] at hsi
    have hp : (if pos = 0 ∧ stat = .connected then
        { rest.toBucket config with pending := none } else rest.toBucket config) =
        (if pos = 0 ∧ stat = .connected then { rest with pending := none } else rest).toBucket config := by
      split_ifs <;> rfl
    have hs' : (if pos = 0 ∧ stat = .connected then { rest with pending := none } else rest).size = rest.size := by
      split_ifs <;> rfl
    simp only [bind, Except.bind, hp]
    rw [toBucket_insert_of_room config (by omega)]

theorem toBucket_exec (hs : a.size ≤ config.bucketSize) (call : BucketOp K V × Instant) :
    (a.toBucket config).exec call = .ok ((a.exec config call).1, (a.exec config call).2.toBucket config) := by
  obtain ⟨op, _⟩ := call
  cases op with
  | insert =>
    simp only [KBucket.exec, toBucket_insert]
    rfl
  | update =>
    simp only [KBucket.exec, toBucket_update config hs]
    rfl
  | remove =>
    simp only [KBucket.exec, toBucket_remove]
    rfl
  | updatePending => rfl
  | removePending => rfl
  | applyPending =>
    simp only [KBucket.exec, toBucket_applyPending]
    rfl

end Keyed
end TwoLists

def KBucket.nodeKeys [AsKeyBytes K] (b : KBucket K V) : List KeyBytes := b.nodes.map fun node => keyBytes node.key

def KBucket.keys [AsKeyBytes K] (b : KBucket K V) : List KeyBytes :=
  b.nodeKeys ++ b.pending.toList.map fun pending => keyBytes pending.node.key

theorem TwoLists.coe_nodeKeys_toBucket [AsKeyBytes K] (config : KBucketConfig) (a : TwoLists K V) :
    ((a.toBucket config).nodeKeys : Multiset KeyBytes) = a.nodeKeys := by
  simp only [KBucket.nodeKeys, toBucket, nodeKeys, map_append, map_map, ← Multiset.coe_add]
  rfl

theorem TwoLists.coe_keys_toBucket [AsKeyBytes K] (config : KBucketConfig) (a : TwoLists K V) :
    ((a.toBucket config).keys : Multiset KeyBytes) = a.keys := by
  rw [KBucket.keys, ← Multiset.coe_add, coe_nodeKeys_toBucket]
  rfl

namespace KBucket

variable {config : KBucketConfig}

/-- The bucket represents two lists that fit it. -/
def Represents (config : KBucketConfig) (b : KBucket K V) (a : TwoLists K V) : Prop :=
  b = a.toBucket config ∧ a.Valid config

theorem represents_new : Represents config (new config) (empty : TwoLists K V) := ⟨rfl, valid_empty⟩

variable [AsKeyBytes K] {b : KBucket K V} {a : TwoLists K V}

theorem Represents.exec (hb : Represents config b a) (call : BucketOp K V × Instant) :
    ∃ next, b.exec call = .ok ((a.exec config call).1, next) ∧ Represents config next (a.exec config call).2 := by
  obtain ⟨rfl, ha⟩ := hb
  exact ⟨_, toBucket_exec config ha.size_le call, rfl, ha.exec call⟩

/-- A node is inserted only under a key that the bucket does not have, which is what the callers of
`insert` see to. -/
def FreshInsert (b : KBucket K V) (call : BucketOp K V × Instant) : Prop :=
  ∀ node status, call.1 = .insert node status → keyBytes node.key ∉ b.keys

theorem Represents.nodup_exec (hb : Represents config b a) (hk : b.keys.Nodup)
    {call : BucketOp K V × Instant} (hf : b.FreshInsert call) : (a.exec config call).2.keys.Nodup := by
  obtain ⟨rfl, _⟩ := hb
  have hn : a.keys.Nodup := by
    rw [← a.coe_keys_toBucket config]
    exact Multiset.coe_nodup.2 hk
  rcases a.keys_exec_le config call with hle | ⟨node, stat, hc, hle⟩
  · exact Multiset.nodup_of_le hle hn
  have hnot : keyBytes node.key ∉ a.keys := by
    rw [← a.coe_keys_toBucket config]
    exact hf node stat hc
  exact Multiset.nodup_of_le hle (Multiset.nodup_cons.2 ⟨hnot, hn⟩)

theorem nodup_keys_run {calls : List (BucketOp K V × Instant)}
    (hf : Along exec FreshInsert (new config) calls) {outs : List (BucketOutput K V)}
    (hrun : run exec (new config) calls = .ok (outs, b)) : b.keys.Nodup := by
  let Inv : KBucket K V → Prop := fun b => (∃ a, Represents config b a) ∧ b.keys.Nodup
  have hs : ∀ b call out next, Inv b → b.FreshInsert call → b.exec call = .ok (out, next) → Inv next := by
    rintro b call out next ⟨⟨a, hb⟩, hk⟩ hf he
    obtain ⟨_, he', hn⟩ := hb.exec call
    cases he.symm.trans he'
    refine ⟨⟨_, hn⟩, ?_⟩
    rw [hn.1, ← Multiset.coe_nodup, coe_keys_toBucket]
    exact hb.nodup_exec hk hf
  exact (run_invariant hs ⟨⟨_, represents_new⟩, nodup_nil⟩ hf hrun).2

/-- Over every sequence of calls a bucket answers as the two lists do, without a panic, and represents
them at the end; its keys are unique as long as no key is inserted that it already has. -/
theorem run_refines_twoLists (config : KBucketConfig) (calls : List (BucketOp K V × Instant)) :
    ∃ b a, run exec (new config) calls = .ok ((runTotal (TwoLists.exec config) empty calls).1, b) ∧
      a = (runTotal (TwoLists.exec config) empty calls).2 ∧
      b = a.toBucket config ∧
      a.disconnected.Pairwise (fun x y => x.since < y.since) ∧
      a.connected.Pairwise (fun x y => x.since < y.since) ∧
      b.iter = a.disconnected.map (fun placed => (placed.node, .disconnected)) ++
        a.connected.map (fun placed => (placed.node, .connected)) ∧
      b.nodes.length ≤ b.capacity ∧
      (∀ p, b.firstConnectedPos = some p → p < b.nodes.length) ∧
      (Along exec FreshInsert (new config) calls → b.keys.Nodup) := by
  obtain ⟨b, hrun, hb, ha⟩ := run_simulation
    (fun b a call (hb : Represents config b a) => hb.exec call) calls represents_new
  refine ⟨b, _, hrun, rfl, hb, ha.disconnected.1, ha.connected.1, ?_, ?_, ?_, fun hf =>
    nodup_keys_run hf hrun⟩
  · rw [hb]
    exact toBucket_iter config _
  · rw [hb, length_toBucket_nodes]
    exact ha.size_le
  intro _ hp
  rw [hb, length_toBucket_nodes]
  rw [hb, toBucket] at hp
  split_ifs at hp with hnil
  cases hp
  exact Nat.lt_add_of_pos_right (length_pos_of_ne_nil hnil)

end KBucket

/-- One place; the connected newcomer waits for the disconnected node and takes its place. -/
def evictingCalls : List (BucketOp KeyBytes Unit × Instant) :=
  [(.insert ⟨⟨1⟩, ()⟩ .disconnected, 0), (.insert ⟨⟨2⟩, ()⟩ .connected, 5), (.applyPending, 15)]

theorem run_refines_evictingCalls : ∃ b : KBucket KeyBytes Unit,
    run exec (new ⟨1, by decide, 10⟩) evictingCalls = .ok ([.insert .inserted, .insert (.pending ⟨1⟩),
        .applyPending (some ⟨⟨⟨2⟩, ()⟩, some ⟨⟨1⟩, ()⟩⟩)], b) ∧ b.keys.Nodup := by
  obtain ⟨b, -, hrun, -, -, -, -, -, -, -, hn⟩ := run_refines_twoLists ⟨1, by decide, 10⟩ evictingCalls
  refine ⟨b, hrun, hn ⟨?_, ?_⟩⟩
  · rintro node stat ⟨⟩
    decide
  rintro - - ⟨⟩
  refine ⟨?_, ?_⟩
  · rintro node stat ⟨⟩
    decide
  · rintro - - ⟨⟩
    refine ⟨?_, fun _ _ _ => trivial⟩
    rintro node stat ⟨⟩

/-- Two places, and the same key inserted into both. -/
def doubleInsert : List (BucketOp KeyBytes Unit × Instant) :=
  [(.insert ⟨⟨1⟩, ()⟩ .connected, 0), (.insert ⟨⟨1⟩, ()⟩ .disconnected, 0)]

theorem not_nodup_doubleInsert : ∃ outputs b,
    run exec (new ⟨2, by decide, 0⟩) doubleInsert = .ok (outputs, b) ∧ ¬b.keys.Nodup := by
  refine ⟨_, _, rfl, ?_⟩
  decide

end RustLibp2p.Kad
