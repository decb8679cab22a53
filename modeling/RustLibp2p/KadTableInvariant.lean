import RustLibp2p.KadBucketSpec
import RustLibp2p.KadTable

/-! What the callers of a bucket can rely on: no call on a well-formed bucket panics, what each call does
to the keys, and that the result of `apply_pending` tells exactly when the pending node has become a
node. -/

namespace RustLibp2p.Kad

open TwoLists List

variable {K V : Type}

namespace KBucket

/-- The split index lies inside the vector, which fits the bucket. -/
structure WellFormed (config : KBucketConfig) (b : KBucket K V) : Prop where
  capacity : b.capacity = config.bucketSize
  pendingTimeout : b.pendingTimeout = config.pendingTimeout
  length_le : b.nodes.length ≤ config.bucketSize
  split_lt : ∀ p, b.firstConnectedPos = some p → p < b.nodes.length

variable {config : KBucketConfig}

theorem wellFormed_new : WellFormed config (new config : KBucket K V) := ⟨rfl, rfl, Nat.zero_le _, nofun⟩

theorem wellFormed_toBucket {a : TwoLists K V} (hs : a.size ≤ config.bucketSize) :
    WellFormed config (a.toBucket config) := by
  refine ⟨rfl, rfl, (a.length_toBucket_nodes config).trans_le hs, ?_⟩
  intro _ hp
  rw [a.length_toBucket_nodes]
  rw [toBucket] at hp
  split_ifs at hp with hnil
  cases hp
  exact Nat.lt_add_of_pos_right (length_pos_of_ne_nil hnil)

variable {b : KBucket K V} {key : K}

theorem WellFormed.exists_twoLists (hb : WellFormed config b) :
    ∃ a : TwoLists K V, b = a.toBucket config ∧ a.size ≤ config.bucketSize := by
  obtain ⟨nodes, _, firstConnectedPos, pending, _⟩ := b
  obtain ⟨rfl, rfl, hlen, hs⟩ := hb
  cases firstConnectedPos with
  | none =>
    refine ⟨⟨nodes.map (⟨·, 0⟩), [], pending, 0⟩, ?_, by simpa [size] using hlen⟩
    simp [toBucket, Function.comp_def]
  | some p =>
    have hp : p < nodes.length := hs p rfl
    have hd : nodes.drop p ≠ [] := by
      rw [Ne, drop_eq_nil_iff]
      omega
    refine ⟨⟨(nodes.take p).map (⟨·, 0⟩), (nodes.drop p).map (⟨·, 0⟩), pending, 0⟩, ?_, ?_⟩
    · simp [toBucket, Function.comp_def, hp.le, Nat.not_le.2 hp]
    · simp only [size, length_map, length_take, length_drop]
      exact (by omega : min p nodes.length + (nodes.length - p) = nodes.length).trans_le hlen

variable [AsKeyBytes K]

theorem nodeKeys_subset_keys (b : KBucket K V) : b.nodeKeys ⊆ b.keys := List.subset_append_left _ _

theorem position_isSome_iff : (b.position key).isSome ↔ keyBytes key ∈ b.nodeKeys := by
  simp [position, nodeKeys]

variable {pending : PendingNode K V}

theorem asPending_eq_some (hp : b.asPending key = some pending) :
    b.pending = some pending ∧ keyBytes pending.node.key = keyBytes key := by
  rw [asPending, Option.filter_eq_some_iff] at hp
  exact ⟨hp.1, of_decide_eq_true hp.2⟩

theorem mem_keys_iff : keyBytes key ∈ b.keys ↔ (b.position key).isSome ∨ (b.asPending key).isSome := by
  rw [keys, mem_append, position_isSome_iff]
  cases hp : b.pending with
  | none => simp [asPending, hp]
  | some pending =>
    by_cases heq : keyBytes pending.node.key = keyBytes key
    · simp [asPending, hp, heq]
    · simp [asPending, hp, heq, Ne.symm heq]

section

variable (hb : WellFormed config b)
include hb

theorem WellFormed.insert (now : Instant) (node : Node K V) (stat : NodeStatus) :
    ∃ res next, b.insert now node stat = .ok (res, next) ∧ WellFormed config next ∧
      (next.keys : Multiset KeyBytes) ≤ keyBytes node.key ::ₘ b.keys ∧
      next.nodeKeys ⊆ keyBytes node.key :: b.nodeKeys := by
  obtain ⟨a, rfl, hs⟩ := hb.exists_twoLists
  have hv := Moves.size_le hs (a.moves_insert now node stat)
  obtain ⟨hn, _⟩ := a.nodeKeys_insert_le config now node stat
  refine ⟨_, _, toBucket_insert config a now node stat, wellFormed_toBucket hv, ?_, ?_⟩
  · rwa [coe_keys_toBucket, coe_keys_toBucket]
  · rw [← coe_nodeKeys_toBucket config, ← coe_nodeKeys_toBucket config] at hn
    exact Multiset.coe_subset.1 (Multiset.subset_of_le hn)

theorem WellFormed.update (now : Instant) (key : K) (stat : NodeStatus) :
    ∃ next, b.update now key stat = .ok next ∧ WellFormed config next ∧
      (next.keys : Multiset KeyBytes) ≤ b.keys ∧ (next.nodeKeys : Multiset KeyBytes) = b.nodeKeys := by
  obtain ⟨a, rfl, hs⟩ := hb.exists_twoLists
  have hv := Moves.size_le hs (moves_update hs key stat)
  obtain ⟨hn, hp⟩ := a.nodeKeys_update key stat
  refine ⟨_, toBucket_update config hs now key stat, wellFormed_toBucket hv, ?_, ?_⟩
  · rw [coe_keys_toBucket, coe_keys_toBucket]
    exact add_le_add hn.le hp
  · rwa [coe_nodeKeys_toBucket, coe_nodeKeys_toBucket]

theorem WellFormed.remove (key : K) :
    ∃ removed next, b.remove key = .ok (removed, next) ∧ WellFormed config next ∧
      (next.keys : Multiset KeyBytes) ≤ b.keys ∧ next.nodeKeys ⊆ b.nodeKeys ∧
      (keyBytes key ∈ b.nodeKeys → removed.isSome) := by
  obtain ⟨a, rfl, hs⟩ := hb.exists_twoLists
  obtain ⟨hd, hc, -⟩ := a.remove_sublist key
  obtain ⟨hn, hp⟩ := a.nodeKeys_remove_le key
  refine ⟨_, _, toBucket_remove config a key, wellFormed_toBucket ?_, ?_, ?_, ?_⟩
  · exact (Nat.add_le_add hd.length_le hc.length_le).trans hs
  · rw [coe_keys_toBucket, coe_keys_toBucket]
    exact add_le_add hn hp.le
  · rw [← coe_nodeKeys_toBucket config, ← coe_nodeKeys_toBucket config] at hn
    exact Multiset.coe_subset.1 (Multiset.subset_of_le hn)
  intro hmem
  by_contra hno
  rw [Option.not_isSome_iff_eq_none] at hno
  apply (remove_of_none hno).2
  rw [← a.coe_nodeKeys_toBucket config]
  exact hmem

theorem WellFormed.updatePending (stat : NodeStatus) :
    WellFormed config (b.updatePending stat) ∧ (b.updatePending stat).keys = b.keys := by
  refine ⟨{ hb with }, ?_⟩
  simp only [KBucket.updatePending, keys, nodeKeys]
  cases b.pending <;> rfl

theorem WellFormed.removePending :
    WellFormed config b.removePending.2 ∧ (b.removePending.2.keys : Multiset KeyBytes) ≤ b.keys := by
  refine ⟨{ hb with }, ?_⟩
  have hk : b.removePending.2.keys = b.nodeKeys := append_nil _
  rw [hk]
  exact Multiset.coe_le.2 (sublist_append_left _ _).subperm

theorem WellFormed.setValue (hmem : keyBytes key ∈ b.nodeKeys) (value : V) :
    ∃ next, b.setValue key value = some next ∧ WellFormed config next ∧ next.keys = b.keys ∧
      next.nodeKeys = b.nodeKeys := by
  obtain ⟨pos, hpos⟩ := Option.isSome_iff_exists.1 (position_isSome_iff.2 hmem)
  have hnoK : (b.nodes.modify pos fun node => { node with value }).map
      (fun node => keyBytes node.key) = b.nodeKeys := by
    apply ext_getElem (by simp [nodeKeys])
    intro _ _ _
    simp only [nodeKeys, getElem_map, getElem_modify]
    split_ifs <;> rfl
  have hlen := length_modify (fun node : Node K V => { node with value }) b.nodes pos
  refine ⟨{ b with nodes := b.nodes.modify pos fun node => { node with value } },
    by rw [KBucket.setValue, hpos]; rfl,
    ⟨hb.capacity, hb.pendingTimeout, hlen.trans_le hb.length_le, ?_⟩, ?_, hnoK⟩
  · intro p hp
    rw [hlen]
    exact hb.split_lt p hp
  · exact congrArg (· ++ _) hnoK

theorem WellFormed.setPendingValue (hp : b.pending = some pending) (value : V) :
    ∃ next pending', b.setPendingValue value = some next ∧ WellFormed config next ∧ next.keys = b.keys ∧
      next.nodeKeys = b.nodeKeys ∧ next.pending = some pending' ∧
      keyBytes pending'.node.key = keyBytes pending.node.key := by
  let pending' := { pending with node := { pending.node with value } }
  refine ⟨{ b with pending := some pending' }, pending', by rw [KBucket.setPendingValue, hp]; rfl,
    { hb with }, ?_, rfl, rfl, rfl⟩
  rw [keys, keys, hp]
  rfl

end

/-- What a change of the bucket shows: the pending node has become a node, in the place of the node
that is gone. -/
def replacement (before after : KBucket K V) : Option (AppliedPending K V) :=
  match before.pending with
  | some pending =>
    if keyBytes pending.node.key ∈ after.nodeKeys then
      some ⟨pending.node, before.nodes.find? fun node => keyBytes node.key ∉ after.nodeKeys⟩
    else none
  | none => none

theorem replacement_eq_none {pre after : KBucket K V} (hk : pre.keys.Nodup)
    (hn : ∀ k ∈ after.nodeKeys, k ∈ pre.nodeKeys ∨ k ∉ pre.keys) : replacement pre after = none := by
  unfold replacement
  cases hp : pre.pending with
  | none => rfl
  | some pending =>
    simp only [keys, hp] at hk hn
    have hnot : keyBytes pending.node.key ∉ after.nodeKeys := by
      intro hmem
      rcases hn _ hmem with hbe | hf
      · exact (nodup_append.1 hk).2.2 _ hbe _ (mem_singleton_self _) rfl
      · exact hf (mem_append_right _ (mem_singleton_self _))
    exact if_neg hnot

theorem replacement_applyPending (a : TwoLists K V) (hke : (a.toBucket config).keys.Nodup) (now : Instant) :
    replacement (a.toBucket config) ((a.applyPending config now).2.toBucket config) =
      (a.applyPending config now).1 := by
  have hmem : ∀ (b : TwoLists K V) (k : KeyBytes), k ∈ (b.toBucket config).nodeKeys ↔ k ∈ b.nodeKeys := by
    intro b k
    rw [← b.coe_nodeKeys_toBucket config, Multiset.mem_coe]
  rcases a.applyPending_cases config now with ⟨pending, hp, heq⟩ | ⟨pending, hp, -, heq⟩ |
    ⟨pending, oldest, rest, hp, hd, heq⟩
  · rw [heq]
    exact replacement_eq_none hke fun k hk => .inl hk
  · have hf : (a.toBucket config).nodes.find? (fun node => keyBytes node.key ∉
        ((a.applyPending config now).2.toBucket config).nodeKeys) = none := by
      rw [find?_eq_none]
      intro node hn
      rw [decide_eq_true_eq, Classical.not_not, hmem, heq, nodeKeys_place]
      apply Multiset.mem_cons_of_mem
      exact (hmem a _).1 (mem_map_of_mem hn)
    have hin : keyBytes pending.node.key ∈ ((a.applyPending config now).2.toBucket config).nodeKeys := by
      rw [hmem, heq, nodeKeys_place]
      exact Multiset.mem_cons_self _ _
    simp only [replacement, show (a.toBucket config).pending = some pending from hp, if_pos hin, hf]
    rw [heq]
  · have hno : (a.toBucket config).nodes = oldest.node :: (rest ++ a.connected).map Placed.node := by
      rw [toBucket, hd]
      rfl
    have ha : ∀ k, k ∈ ((a.applyPending config now).2.toBucket config).nodeKeys ↔
        k = keyBytes pending.node.key ∨ k ∈ (rest ++ a.connected).map fun placed => keyBytes placed.node.key := by
      intro k
      rw [hmem, heq, nodeKeys_place, Multiset.mem_cons, map_append, mem_append, TwoLists.nodeKeys, Multiset.mem_add]
      rfl
    have hg : keyBytes oldest.node.key ∉ ((a.applyPending config now).2.toBucket config).nodeKeys := by
      have ho : keyBytes oldest.node.key ∉ (rest ++ a.connected).map (fun placed => keyBytes placed.node.key) ++
          [keyBytes pending.node.key] := by
        rw [keys, nodeKeys, hno, show (a.toBucket config).pending = some pending from hp,
          map_cons, map_map, cons_append] at hke
        exact (nodup_cons.1 hke).1
      rw [ha]
      rintro (heq | hr)
      · exact ho (mem_append_right _ (mem_singleton.2 heq))
      · exact ho (mem_append_left _ hr)
    have hin : keyBytes pending.node.key ∈ ((a.applyPending config now).2.toBucket config).nodeKeys :=
      (ha _).2 (.inl rfl)
    simp only [replacement, show (a.toBucket config).pending = some pending from hp, if_pos hin, hno]
    rw [find?_cons_of_pos (by simpa using hg), heq]

theorem WellFormed.applyPending (hb : WellFormed config b) (now : Instant) :
    ∃ applied next, b.applyPending now = .ok (applied, next) ∧ WellFormed config next ∧
      (next.keys : Multiset KeyBytes) ≤ b.keys ∧ (b.keys.Nodup → replacement b next = applied) := by
  obtain ⟨a, rfl, hs⟩ := hb.exists_twoLists
  have hv := Moves.size_le hs (moves_applyPending hs now)
  refine ⟨_, _, toBucket_applyPending config a now, wellFormed_toBucket hv, ?_, ?_⟩
  · rw [coe_keys_toBucket, coe_keys_toBucket]
    exact a.keys_applyPending_le now
  · intro hk
    exact replacement_applyPending a hk now

end KBucket

/-! What holds of a routing table after every sequence of accesses. -/
open Transition KBucket ClosestIter

variable [AsKeyBytes K]

namespace KBucketsTable

/-- The replacements that the changes of the buckets show, in order. -/
def replacements (t : KBucketsTable K V) : List (AppliedPending K V) :=
  t.changes.filterMap fun change => KBucket.replacement change.1 change.2

structure Inv (localKey : K) (config : KBucketConfig) (taken : List (AppliedPending K V))
    (t : KBucketsTable K V) : Prop where
  localKey_eq : t.localKey = localKey
  bucketSize_eq : t.bucketSize = config.bucketSize
  wellFormed : ∀ i, (t.buckets i).WellFormed config
  nodup : ∀ i, (t.buckets i).keys.Nodup
  index : ∀ i, ∀ k ∈ (t.buckets i).keys, ((keyBytes localKey).distance k).ilog2 = some i.val
  reported : t.replacements = taken ++ t.appliedPending

variable {localKey : K} {config : KBucketConfig} {taken : List (AppliedPending K V)}
  {t : KBucketsTable K V}

theorem inv_new : Inv localKey config [] (new localKey config : KBucketsTable K V) where
  localKey_eq := rfl
  bucketSize_eq := rfl
  wellFormed _ := wellFormed_new
  nodup _ := List.nodup_nil
  index _ _ h := nomatch h
  reported := rfl

variable {i : BucketIndex} {next : KBucket K V} {ref : EntryRef K} {applied : Option (AppliedPending K V)}

section

variable (ht : Inv localKey config taken t) (hnext : next.WellFormed config)
include ht hnext

theorem Inv.setBucket (hn : next.keys.Nodup) (hi : ∀ k ∈ next.keys, ((keyBytes localKey).distance k).ilog2 = some i.val)
    (ha : KBucket.replacement (t.buckets i) next = applied) :
    Inv localKey config taken { t.setBucket i next with appliedPending := t.appliedPending ++ applied.toList } where
  __ := ht
  wellFormed j := by
    by_cases hj : j = i
    · subst hj
      simpa only [setBucket_self] using hnext
    · simpa only [setBucket_of_ne t hj] using ht.wellFormed j
  nodup j := by
    by_cases hj : j = i
    · subst hj
      simpa only [setBucket_self] using hn
    · simpa only [setBucket_of_ne t hj] using ht.nodup j
  index j := by
    by_cases hj : j = i
    · subst hj
      simpa only [setBucket_self] using hi
    · simpa only [setBucket_of_ne t hj] using ht.index j
  reported := by
    have hr := ht.reported
    simp only [replacements] at hr
    simp only [replacements, KBucketsTable.setBucket, List.filterMap_append, hr, List.append_assoc]
    cases applied <;> simp [ha]

theorem Inv.setBucket_of_le (hle : (next.keys : Multiset KeyBytes) ≤ (t.buckets i).keys)
    (ha : KBucket.replacement (t.buckets i) next = applied) :
    Inv localKey config taken { t.setBucket i next with appliedPending := t.appliedPending ++ applied.toList } :=
  ht.setBucket hnext (Multiset.coe_nodup.1 (Multiset.nodup_of_le hle (Multiset.coe_nodup.2 (ht.nodup i))))
    (fun k hk => ht.index i k (Multiset.mem_of_le hle hk)) ha

end

theorem Inv.of_append_nil (ht : Inv localKey config taken { t with appliedPending := t.appliedPending ++ [] }) :
    Inv localKey config taken t := by
  rwa [List.append_nil] at ht

theorem Inv.setBucket_quiet (ht : Inv localKey config taken t)
    (hnext : next.WellFormed config) (hle : (next.keys : Multiset KeyBytes) ≤ (t.buckets i).keys)
    (hn : next.nodeKeys ⊆ (t.buckets i).nodeKeys) : Inv localKey config taken (t.setBucket i next) := by
  have hno := replacement_eq_none (ht.nodup i) fun k hk => .inl (hn hk)
  exact (ht.setBucket_of_le hnext hle hno).of_append_nil

theorem Inv.visit (ht : Inv localKey config taken t) (i : BucketIndex) (now : Instant) :
    ∃ next, t.visit i now = .ok next ∧ Inv localKey config taken next := by
  obtain ⟨_, _, ha, hnext, hle, hr⟩ := (ht.wellFormed i).applyPending now
  refine ⟨_, by rw [KBucketsTable.visit, ha]; rfl, ?_⟩
  exact ht.setBucket_of_le hnext hle (hr (ht.nodup i))

/-- What an entry says about the bucket it refers to. -/
def Holds (t : KBucketsTable K V) : Entry K → Prop
  | .present ref _ => keyBytes ref.key ∈ (t.buckets ref.index).nodeKeys
  | .pending ref _ => ∃ pending, (t.buckets ref.index).pending = some pending ∧
      keyBytes pending.node.key = keyBytes ref.key
  | .absent ref => keyBytes ref.key ∉ (t.buckets ref.index).keys ∧
      ((keyBytes t.localKey).distance (keyBytes ref.key)).ilog2 = some ref.index.val

theorem holds_newEntry (hi : ((keyBytes t.localKey).distance (keyBytes ref.key)).ilog2 = some ref.index.val) :
    t.Holds (t.newEntry ref) := by
  cases hpos : (t.buckets ref.index).position ref.key with
  | some pos =>
    simp only [newEntry, hpos]
    exact position_isSome_iff.1 (Option.isSome_iff_exists.2 ⟨pos, hpos⟩)
  | none =>
    cases hp : (t.buckets ref.index).asPending ref.key with
    | some pend =>
      simp only [newEntry, hpos, hp]
      exact ⟨pend, asPending_eq_some hp⟩
    | none =>
      simp only [newEntry, hpos, hp]
      refine ⟨?_, hi⟩
      simp [mem_keys_iff, hpos, hp]

section

variable (ht : Inv localKey config taken t)
include ht

theorem Inv.entry (key : K) (now : Instant) :
    ∃ found next, t.entry key now = .ok (found, next) ∧ Inv localKey config taken next ∧
      ∀ entry, found = some entry → next.Holds entry := by
  unfold KBucketsTable.entry
  cases hn : BucketIndex.new ((keyBytes t.localKey).distance (keyBytes key)) with
  | none => exact ⟨none, t, rfl, ht, nofun⟩
  | some i =>
    obtain ⟨next, hv, hnext⟩ := ht.visit i now
    refine ⟨_, next, by simp only [hv]; rfl, hnext, ?_⟩
    rintro entry ⟨⟩
    apply holds_newEntry
    rw [hnext.localKey_eq, ← ht.localKey_eq]
    exact BucketIndex.ilog2_of_new hn

theorem Inv.presentCalls (hmem : keyBytes ref.key ∈ (t.buckets ref.index).nodeKeys)
    (calls : List (PresentCall V)) : ∃ next, presentCalls ref calls t = .ok next ∧ Inv localKey config taken next ∧
      keyBytes ref.key ∈ (next.buckets ref.index).nodeKeys := by
  induction calls generalizing t with
  | nil => exact ⟨t, rfl, ht, hmem⟩
  | cons call calls ih =>
    cases call with
    | value value =>
      obtain ⟨b, hs, hb, hk, hn⟩ := (ht.wellFormed ref.index).setValue hmem value
      have hnext := ht.setBucket_quiet hb (congrArg _ hk).le (hn ▸ List.Subset.refl _)
      have hm' : keyBytes ref.key ∈ ((t.setBucket ref.index b).buckets ref.index).nodeKeys := by
        simpa only [setBucket_self, hn] using hmem
      obtain ⟨next, hr, hi, hl⟩ := ih hnext hm'
      refine ⟨next, ?_, hi, hl⟩
      simpa [presentCalls, presentValue, hs, bind, Except.bind] using hr
    | update stat now =>
      obtain ⟨b, hu, hb, hk, hn⟩ := (ht.wellFormed ref.index).update now ref.key stat
      have hp : b.nodeKeys.Perm (t.buckets ref.index).nodeKeys := Multiset.coe_eq_coe.1 hn
      have hnext := ht.setBucket_quiet hb hk hp.subset
      have hm' : keyBytes ref.key ∈ ((t.setBucket ref.index b).buckets ref.index).nodeKeys := by
        simpa only [setBucket_self] using hp.mem_iff.2 hmem
      obtain ⟨next, hr, hi, hl⟩ := ih hnext hm'
      refine ⟨next, ?_, hi, hl⟩
      simpa [presentCalls, presentUpdate, hu, bind, Except.bind] using hr

theorem Inv.pendingCalls (hh : ∃ pending, (t.buckets ref.index).pending = some pending ∧ keyBytes pending.node.key
    = keyBytes ref.key)
    (calls : List (PendingCall V)) : ∃ next, pendingCalls ref calls t = .ok next ∧ Inv localKey config taken next ∧
      ∃ pending, (next.buckets ref.index).pending = some pending ∧ keyBytes pending.node.key = keyBytes ref.key := by
  induction calls generalizing t with
  | nil => exact ⟨t, rfl, ht, hh⟩
  | cons call calls ih =>
    obtain ⟨pending, hp, hk⟩ := hh
    cases call with
    | value value =>
      obtain ⟨_, pending', hs, hb, hke, hn, _, hk'⟩ :=
        (ht.wellFormed ref.index).setPendingValue hp value
      have hnext := ht.setBucket_quiet hb (congrArg _ hke).le (hn ▸ List.Subset.refl _)
      obtain ⟨next, hr, hi, hl⟩ := ih hnext ⟨pending', by rwa [setBucket_self], hk'.trans hk⟩
      refine ⟨next, ?_, hi, hl⟩
      simpa [pendingCalls, pendingValue, hs, bind, Except.bind] using hr
    | update status =>
      obtain ⟨hb, hke⟩ := (ht.wellFormed ref.index).updatePending status
      have hnext := ht.setBucket_quiet hb (congrArg _ hke).le (List.Subset.refl _)
      refine ih hnext ⟨{ pending with status }, ?_, hk⟩
      rw [pendingUpdate, setBucket_self, KBucket.updatePending, hp]
      rfl

theorem Inv.useEntry {e : Entry K} (hh : t.Holds e) (use : EntryUse V) :
    ∃ next, t.useEntry use e = .ok next ∧ Inv localKey config taken next := by
  cases e with
  | present ref =>
    obtain ⟨next, hc, hnext, hmem⟩ := ht.presentCalls hh use.present
    by_cases hr : use.removePresent
    · obtain ⟨_, b, hb, hw, hle, hn, hs⟩ := (hnext.wellFormed ref.index).remove ref.key
      obtain ⟨⟨_, _, _⟩, rfl⟩ := Option.isSome_iff_exists.1 (hs hmem)
      refine ⟨_, ?_, hnext.setBucket_quiet hw hle hn⟩
      simp [KBucketsTable.useEntry, hc, hr, presentRemove, hb, bind, Except.bind]
    · refine ⟨next, ?_, hnext⟩
      simp [KBucketsTable.useEntry, hc, hr, bind, Except.bind]
  | pending ref =>
    obtain ⟨next, hc, hnext, pending, hp, -⟩ := ht.pendingCalls hh use.pending
    by_cases hr : use.removePending
    · obtain ⟨hw, hle⟩ := (hnext.wellFormed ref.index).removePending
      refine ⟨_, ?_, hnext.setBucket_quiet hw hle (List.Subset.refl _)⟩
      simp [KBucketsTable.useEntry, hc, hr, pendingRemove, KBucket.removePending, hp, bind, Except.bind]
    · refine ⟨next, ?_, hnext⟩
      simp [KBucketsTable.useEntry, hc, hr, bind, Except.bind]
  | absent ref =>
    cases hi : use.insert with
    | none => exact ⟨t, by simp [KBucketsTable.useEntry, hi], ht⟩
    | some args =>
      obtain ⟨v, stat, now⟩ := args
      obtain ⟨hf, hin⟩ := hh
      obtain ⟨_, b, hb, hw, hle, hn⟩ := (ht.wellFormed ref.index).insert now ⟨ref.key, v⟩ stat
      refine ⟨t.setBucket ref.index b, by simp [KBucketsTable.useEntry, hi, absentInsert, hb, bind, Except.bind], ?_⟩
      have hno : (keyBytes ref.key ::ₘ ((t.buckets ref.index).keys : Multiset KeyBytes)).Nodup :=
        Multiset.nodup_cons.2 ⟨hf, Multiset.coe_nodup.2 (ht.nodup ref.index)⟩
      have hnn : KBucket.replacement (t.buckets ref.index) b = none := by
        apply replacement_eq_none (ht.nodup ref.index)
        intro k hk
        rcases List.mem_cons.1 (hn hk) with rfl | ho
        · exact .inr hf
        · exact .inl ho
      refine (ht.setBucket hw (Multiset.nodup_of_le hle hno) ?_ hnn).of_append_nil
      intro k hk
      rcases Multiset.mem_cons.1 (Multiset.mem_of_le hle hk) with rfl | ho
      · rwa [ht.localKey_eq] at hin
      · exact ht.index ref.index k ho

theorem Inv.visitAll (clock : Nat → Instant) (indices : List BucketIndex) :
    ∃ seen next, visitAll clock indices t = .ok (seen, next) ∧ Inv localKey config taken next := by
  induction indices generalizing t with
  | nil => exact ⟨[], t, rfl, ht⟩
  | cons i rest ih =>
    obtain ⟨middle, hv, hm⟩ := ht.visit i (clock i)
    obtain ⟨seen, next, hr, hnext⟩ := ih hm
    exact ⟨(i, middle.buckets i) :: seen, next, by simp [visitAll, hv, hr, bind, Except.bind], hnext⟩

theorem Inv.bucket (key : KeyBytes) (now : Instant) :
    ∃ found next, t.bucket key now = .ok (found, next) ∧ Inv localKey config taken next := by
  unfold KBucketsTable.bucket
  cases BucketIndex.new ((keyBytes t.localKey).distance key) with
  | none => exact ⟨none, t, rfl, ht⟩
  | some i =>
    obtain ⟨next, hv, hnext⟩ := ht.visit i now
    exact ⟨some (i, next.buckets i), next, by simp [hv, bind, Except.bind], hnext⟩

section Closest

variable {Out : Type} [AsKeyBytes Out]

theorem Inv.nextLoop (clock : Nat → Instant) (fuel : Nat) (it : ClosestIter K V Out) :
    ∃ found it' next, it.nextLoop clock fuel t = .ok (found, it', next) ∧ Inv localKey config taken next := by
  induction fuel generalizing it t with
  | zero => exact ⟨none, it, t, rfl, ht⟩
  | succ fuel ih =>
    unfold nextLoop
    cases it.iter with
    | cons x => exact ⟨some x, _, t, rfl, ht⟩
    | nil =>
      rcases it.bucketsIter.next with ⟨- | i, bucketsIter⟩
      · exact ⟨none, _, t, rfl, ht⟩
      · obtain ⟨_, hv, hm⟩ := ht.visit i (clock it.visits)
        simp only [hv, bind, Except.bind]
        exact ih hm _

theorem Inv.pull (clock : Nat → Instant) (items : Nat) (it : ClosestIter K V Out) :
    ∃ xs it' next, it.pull clock items t = .ok (xs, it', next) ∧ Inv localKey config taken next := by
  induction items generalizing it t with
  | zero => exact ⟨[], it, t, rfl, ht⟩
  | succ items ih =>
    obtain ⟨found, it', middle, hf, hm⟩ := ht.nextLoop clock (2 * numBuckets + 1) it
    cases found with
    | none =>
      refine ⟨[], it', middle, ?_, hm⟩
      simp only [pull, ClosestIter.next, hf, bind, Except.bind]
    | some x =>
      obtain ⟨xs, last, next, hr, hnext⟩ := ih hm it'
      refine ⟨x :: xs, last, next, ?_, hnext⟩
      simp [pull, ClosestIter.next, hf, hr, bind, Except.bind]

end Closest

theorem Inv.takeAppliedPending :
    Inv localKey config (taken ++ t.takeAppliedPending.1.toList) t.takeAppliedPending.2 := by
  refine { ht with reported := ?_ }
  have hr := ht.reported
  simp only [replacements] at hr
  simp only [replacements, KBucketsTable.takeAppliedPending, hr]
  cases t.appliedPending <;> simp

theorem Inv.exec (op : TableOp K V) : ∃ out next, t.exec op = .ok (out, next) ∧
      Inv localKey config (taken ++ out.toList) next := by
  cases op with
  | entry key now use =>
    obtain ⟨found, middle, he, hm, hh⟩ := ht.entry key now
    cases found with
    | none => exact ⟨none, middle, by simp [KBucketsTable.exec, he, bind, Except.bind], by simpa⟩
    | some entry =>
      obtain ⟨next, hu, hnext⟩ := hm.useEntry (hh entry rfl) use
      exact ⟨none, next, by simp [KBucketsTable.exec, he, hu, bind, Except.bind], by simpa⟩
  | iter clock items =>
    obtain ⟨_, next, hi, hnext⟩ := ht.visitAll clock ((List.finRange numBuckets).take items)
    exact ⟨none, next, by simp [KBucketsTable.exec, iter, hi, bind, Except.bind], by simpa⟩
  | bucket key now =>
    obtain ⟨found, next, hb, hnext⟩ := ht.bucket key now
    exact ⟨none, next, by simp [KBucketsTable.exec, hb, bind, Except.bind], by simpa⟩
  | closestKeys tgt clock items =>
    obtain ⟨xs, it, next, hp, hnext⟩ := ht.pull clock items (t.closestKeys tgt)
    exact ⟨none, next, by simp [KBucketsTable.exec, hp, bind, Except.bind], by simpa⟩
  | closest tgt clock items =>
    obtain ⟨xs, it, next, hp, hnext⟩ := ht.pull clock items (t.closest tgt)
    exact ⟨none, next, by simp [KBucketsTable.exec, hp, bind, Except.bind], by simpa⟩
  | takeAppliedPending => exact ⟨_, _, rfl, ht.takeAppliedPending⟩

end

theorem inv_run (localKey : K) (config : KBucketConfig) (ops : List (TableOp K V)) :
    ∃ outs t, run exec (new localKey config) ops = .ok (outs, t) ∧
      Inv localKey config (outs.filterMap id) t := by
  have hs : ∀ (past : List (Option (AppliedPending K V))) (t : KBucketsTable K V) (op : TableOp K V),
      Inv localKey config (past.filterMap id) t → ∃ out next, t.exec op = .ok (out, next) ∧
        Inv localKey config ((past ++ [out]).filterMap id) next := by
    intro past t op ht
    obtain ⟨out, next, he, hnext⟩ := ht.exec op
    refine ⟨out, next, he, ?_⟩
    cases out <;> simpa using hnext
  have hn : Inv localKey config (List.filterMap id []) (new localKey config : KBucketsTable K V) := inv_new
  exact run_total_invariant hs ops hn

theorem Inv.localKey_not_mem (ht : Inv localKey config taken t) (i : BucketIndex) :
    keyBytes localKey ∉ (t.buckets i).keys := by
  intro hmem
  have hl := ht.index i _ hmem
  rw [Distance.ilog2_eq_none_iff.2 (KeyBytes.distance_eq_zero_iff.2 rfl)] at hl
  cases hl

theorem Inv.nodup_all (ht : Inv localKey config taken t) :
    ((List.finRange numBuckets).flatMap fun i => (t.buckets i).keys).Nodup := by
  rw [List.nodup_flatMap]
  refine ⟨fun i _ => ht.nodup i, (List.nodup_finRange numBuckets).imp fun {i j} hne => ?_⟩
  intro k hi hj
  have hl := (ht.index i k hi).symm.trans (ht.index j k hj)
  exact hne (Fin.ext (Option.some.inj hl))

/-- Calls of `take_applied_pending` hand out the queue from its head, and nothing once it is empty. -/
theorem run_takeAppliedPending (t : KBucketsTable K V) (n : Nat) : ∃ last,
    run exec t (List.replicate n .takeAppliedPending) = .ok ((List.range n).map (t.appliedPending[·]?), last) := by
  induction n generalizing t with
  | zero => exact ⟨t, rfl⟩
  | succ n ih =>
    obtain ⟨last, hr⟩ := ih t.takeAppliedPending.2
    refine ⟨last, ?_⟩
    have hs : t.exec .takeAppliedPending = .ok t.takeAppliedPending := rfl
    simp only [List.replicate_succ, run, hs, hr, List.range_succ_eq_map, List.map_cons, List.map_map]
    cases hq : t.appliedPending <;> simp [KBucketsTable.takeAppliedPending, hq, Function.comp_def]

/-- After every sequence of accesses, none of which panics, each bucket has only keys of its distance
range, the local key is nowhere, no key occurs twice, and the replacements made so far are those handed
out followed by those that further calls of `take_applied_pending` give, in order and once each. -/
theorem run_table_invariant (localKey : K) (config : KBucketConfig) (ops : List (TableOp K V)) :
    ∃ outputs t, run exec (new localKey config) ops = .ok (outputs, t) ∧
      (∀ i, ∀ k ∈ (t.buckets i).keys, ((keyBytes localKey).distance k).ilog2 = some i.val) ∧
      (∀ i, keyBytes localKey ∉ (t.buckets i).keys) ∧
      ((List.finRange numBuckets).flatMap fun i => (t.buckets i).keys).Nodup ∧
      ∃ queued, t.replacements = outputs.filterMap id ++ queued ∧ ∀ n, ∃ last,
        run exec t (List.replicate n .takeAppliedPending) = .ok ((List.range n).map (queued[·]?), last) := by
  obtain ⟨outputs, t, hrun, ht⟩ := inv_run localKey config ops
  exact ⟨outputs, t, hrun, ht.index, ht.localKey_not_mem, ht.nodup_all, _, ht.reported, t.run_takeAppliedPending⟩

/-- A bucket for one node: the second key waits for its place and gets it at the next access. -/
example : (run exec (new (⟨0⟩ : KeyBytes) ⟨1, by decide, 10⟩)
    [.entry ⟨2⟩ 0 ⟨[], false, [], false, some ((), .disconnected, 0)⟩,
      .entry ⟨3⟩ 5 ⟨[], false, [], false, some ((), .connected, 5)⟩,
      .bucket ⟨2⟩ 15, .takeAppliedPending, .takeAppliedPending]).map Prod.fst =
    .ok [none, none, none, some ⟨⟨⟨3⟩, ()⟩, some ⟨⟨2⟩, ()⟩⟩, none] := by
  decide +kernel

end KBucketsTable
end RustLibp2p.Kad
