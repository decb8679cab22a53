import RustLibp2p.KadBucket

/-! The routing table: one bucket for each position of the highest bit of the distance to the local key.
Every access to a bucket first inserts its pending node if its time has come, and records that in a queue
which the caller drains. The clock is read anew at each of these accesses. -/

namespace RustLibp2p.Kad

def numBuckets : Nat := 256

instance : NeZero numBuckets := ⟨by decide⟩

abbrev BucketIndex := Fin numBuckets

/-- The bucket for a distance to the local key, none for the local key itself. -/
def BucketIndex.new (d : Distance) : Option BucketIndex :=
  match hlog : d.ilog2 with
  | some i => some ⟨i, Distance.ilog2_lt hlog⟩
  | none => none

theorem BucketIndex.ilog2_of_new {d : Distance} {i : BucketIndex} (hn : BucketIndex.new d = some i) :
    d.ilog2 = some i.val := by
  unfold BucketIndex.new at hn
  split at hn
  · next hl =>
    cases hn
    exact hl
  · cases hn

theorem BucketIndex.bits_of_new {d : Distance} (hn : BucketIndex.new d = none) : d.bits = 0 := by
  unfold BucketIndex.new at hn
  split at hn
  · cases hn
  · next hl => exact Distance.ilog2_eq_none_iff.1 hl

structure KBucketsTable (K V : Type) where
  localKey : K
  buckets : BucketIndex → KBucket K V
  bucketSize : Nat
  appliedPending : List (AppliedPending K V)
  /-- Not part of the program's state: every change of a bucket so far, as it was before and after. -/
  changes : List (KBucket K V × KBucket K V)

/-- A reference to the bucket of a key, held by an entry. -/
structure EntryRef (K : Type) where
  index : BucketIndex
  key : K

inductive Entry (K : Type) where
  | present (ref : EntryRef K) (status : NodeStatus)
  | pending (ref : EntryRef K) (status : NodeStatus)
  | absent (ref : EntryRef K)

structure EntryView (K V : Type) where
  node : Node K V
  status : NodeStatus

variable {K V : Type} [AsKeyBytes K]

instance : AsKeyBytes (EntryView K V) := ⟨fun view => keyBytes view.node.key⟩

/-- A write through `get_mut`, `None` without a node of that key. -/
def KBucket.setValue (b : KBucket K V) (key : K) (value : V) : Option (KBucket K V) :=
  (b.position key).map fun pos =>
    { b with nodes := b.nodes.modify pos fun node => { node with value := value } }

def KBucket.setPendingValue (b : KBucket K V) (value : V) : Option (KBucket K V) :=
  b.pending.map fun pending =>
    { b with pending := some { pending with node := { pending.node with value := value } } }

namespace KBucketsTable

def new (localKey : K) (config : KBucketConfig) : KBucketsTable K V :=
  ⟨localKey, fun _ => KBucket.new config, config.bucketSize, [], []⟩

def setBucket (t : KBucketsTable K V) (i : BucketIndex) (b : KBucket K V) : KBucketsTable K V :=
  { t with buckets := Function.update t.buckets i b, changes := t.changes ++ [(t.buckets i, b)] }

omit [AsKeyBytes K] in
@[simp]
theorem setBucket_self (t : KBucketsTable K V) (i : BucketIndex) (b : KBucket K V) :
    (t.setBucket i b).buckets i = b := by
  simp [setBucket]

omit [AsKeyBytes K] in
theorem setBucket_of_ne (t : KBucketsTable K V) {i j : BucketIndex} (hne : j ≠ i) (b : KBucket K V) :
    (t.setBucket i b).buckets j = t.buckets j := by
  simp [setBucket, hne]

/-- What every access to a bucket starts with. -/
def visit (t : KBucketsTable K V) (i : BucketIndex) (now : Instant) : Except Panic (KBucketsTable K V) := do
  let (applied, b) ← (t.buckets i).applyPending now
  .ok { t.setBucket i b with appliedPending := t.appliedPending ++ applied.toList }

section

variable (t : KBucketsTable K V) (ref : EntryRef K)

def newEntry : Entry K :=
  let b := t.buckets ref.index
  match b.position ref.key with
  | some pos => .present ref (b.status pos)
  | none =>
    match b.asPending ref.key with
    | some pending => .pending ref pending.status
    | none => .absent ref

def entry (key : K) (now : Instant) : Except Panic (Option (Entry K) × KBucketsTable K V) :=
  match BucketIndex.new ((keyBytes t.localKey).distance (keyBytes key)) with
  | none => .ok (none, t)
  | some index => do
      let t ← t.visit index now
      .ok (some (t.newEntry ⟨index, key⟩), t)

def presentValue (value : V) : Except Panic (KBucketsTable K V) :=
  match (t.buckets ref.index).setValue ref.key value with
  | some b => .ok (t.setBucket ref.index b)
  | none => .error (.expect "We can only build a PresentEntry if the entry is in the bucket; QED")

def presentUpdate (status : NodeStatus) (now : Instant) : Except Panic (KBucketsTable K V) := do
  .ok (t.setBucket ref.index (← (t.buckets ref.index).update now ref.key status))

def presentRemove : Except Panic (EntryView K V × KBucketsTable K V) := do
  match ← (t.buckets ref.index).remove ref.key with
  | (some (node, status, _), b) => .ok (⟨node, status⟩, t.setBucket ref.index b)
  | (none, _) => .error (.expect "We can only build a PresentEntry if the entry is in the bucket; QED")

def pendingValue (value : V) : Except Panic (KBucketsTable K V) :=
  match (t.buckets ref.index).setPendingValue value with
  | some b => .ok (t.setBucket ref.index b)
  | none => .error (.expect "We can only build a ConnectedPendingEntry if the entry is pending; QED")

def pendingUpdate (status : NodeStatus) : KBucketsTable K V :=
  t.setBucket ref.index ((t.buckets ref.index).updatePending status)

def pendingRemove : Except Panic (EntryView K V × KBucketsTable K V) :=
  match (t.buckets ref.index).removePending with
  | (some pending, b) => .ok (⟨pending.node, pending.status⟩, t.setBucket ref.index b)
  | (none, _) => .error (.expect "We can only build a PendingEntry if the entry is pending insertion
                    into the bucket; QED")

def absentInsert (value : V) (status : NodeStatus)
    (now : Instant) : Except Panic (InsertResult K × KBucketsTable K V) := do
  let (result, b) ← (t.buckets ref.index).insert now ⟨ref.key, value⟩ status
  .ok (result, t.setBucket ref.index b)

/-- The buckets of a list one after the other, bucket `i` at `clock i`. -/
def visitAll (clock : Nat → Instant) : List BucketIndex → KBucketsTable K V →
    Except Panic (List (BucketIndex × KBucket K V) × KBucketsTable K V)
  | [], t => .ok ([], t)
  | i :: rest, t => do
      let t ← t.visit i (clock i)
      let (later, last) ← visitAll clock rest t
      .ok ((i, t.buckets i) :: later, last)

/-- The first `items` buckets of the iterator over all of them. -/
def iter (clock : Nat → Instant) (items : Nat) : Except Panic (List (BucketIndex × KBucket K V) × KBucketsTable K V) :=
  visitAll clock ((List.finRange numBuckets).take items) t

def bucket (key : KeyBytes) (now : Instant) : Except Panic (Option (BucketIndex × KBucket K V) × KBucketsTable K V) :=
  match BucketIndex.new ((keyBytes t.localKey).distance key) with
  | some index => do
      let t ← t.visit index now
      .ok (some (index, t.buckets index), t)
  | none => .ok (none, t)

def takeAppliedPending : Option (AppliedPending K V) × KBucketsTable K V :=
  (t.appliedPending.head?, { t with appliedPending := t.appliedPending.tail })

end
end KBucketsTable

inductive ClosestBucketsIterState where
  | start (i : BucketIndex)
  | zoomIn (i : BucketIndex)
  | zoomOut (i : BucketIndex)
  | done

/-- The order in which the buckets are visited, from the distance of the target to the local key. -/
structure ClosestBucketsIter where
  distance : Distance
  state : ClosestBucketsIterState

namespace ClosestBucketsIter

def new (distance : Distance) : ClosestBucketsIter :=
  match BucketIndex.new distance with
  | some i => ⟨distance, .start i⟩
  | none => ⟨distance, .start 0⟩

section

variable (it : ClosestBucketsIter) (i : BucketIndex)

def nextIn : Option BucketIndex := ((List.finRange numBuckets).take i).reverse.find? fun j => it.distance.bits.getLsbD j

def nextOut : Option BucketIndex := ((List.finRange numBuckets).drop (i + 1)).find? fun j => !it.distance.bits.getLsbD j

def next : Option BucketIndex × ClosestBucketsIter :=
  match it.state with
  | .start i => (some i, { it with state := .zoomIn i })
  | .zoomIn i =>
    match it.nextIn i with
    | some j => (some j, { it with state := .zoomIn j })
    | none => (some 0, { it with state := .zoomOut 0 })
  | .zoomOut i =>
    match it.nextOut i with
    | some j => (some j, { it with state := .zoomOut j })
    | none => (none, { it with state := .done })
  | .done => (none, it)

end
end ClosestBucketsIter

structure ClosestIter (K V Out : Type) where
  target : KeyBytes
  bucketsIter : ClosestBucketsIter
  iter : List Out
  fmap : Node K V × NodeStatus → Out
  bucketSize : Nat
  /-- The number of buckets visited so far: the clock is read at each. -/
  visits : Nat

namespace ClosestIter

variable {Out : Type} [AsKeyBytes Out]

/-- The projected entries of a bucket, by their distance to the target. -/
def sorted (it : ClosestIter K V Out) (b : KBucket K V) : List Out :=
  ((b.iter.take it.bucketSize).map it.fmap).mergeSort fun x y =>
    it.target.distance (keyBytes x) ≤ it.target.distance (keyBytes y)

/-- At most `fuel` turns of the loop in `next`. -/
def nextLoop (clock : Nat → Instant) : Nat → ClosestIter K V Out → KBucketsTable K V →
    Except Panic (Option Out × ClosestIter K V Out × KBucketsTable K V)
  | 0, it, t => .ok (none, it, t)
  | fuel + 1, it, t =>
    match it.iter with
    | x :: rest => .ok (some x, { it with iter := rest }, t)
    | [] =>
      match it.bucketsIter.next with
      | (none, bucketsIter) => .ok (none, { it with bucketsIter := bucketsIter }, t)
      | (some i, bucketsIter) => do
          let t ← t.visit i (clock it.visits)
          nextLoop clock fuel { it with
            bucketsIter := bucketsIter, iter := it.sorted (t.buckets i), visits := it.visits + 1 } t

/-- Zooming in and zooming out pass each bucket at most once, and the loop turns once more at the end. -/
def next (clock : Nat → Instant) (it : ClosestIter K V Out) (t : KBucketsTable K V) :
    Except Panic (Option Out × ClosestIter K V Out × KBucketsTable K V) :=
  nextLoop clock (2 * numBuckets + 1) it t

def pull (clock : Nat → Instant) : Nat → ClosestIter K V Out → KBucketsTable K V →
    Except Panic (List Out × ClosestIter K V Out × KBucketsTable K V)
  | 0, it, t => .ok ([], it, t)
  | items + 1, it, t => do
      match ← it.next clock t with
      | (none, it, t) => .ok ([], it, t)
      | (some x, it, t) =>
        let (xs, it, t) ← pull clock items it t
        .ok (x :: xs, it, t)

end ClosestIter

namespace KBucketsTable

def closestIter {Out : Type} (t : KBucketsTable K V) (target : KeyBytes)
    (fmap : Node K V × NodeStatus → Out) : ClosestIter K V Out where
  target := target
  bucketsIter := .new ((keyBytes t.localKey).distance target)
  iter := []
  fmap := fmap
  bucketSize := t.bucketSize
  visits := 0

def closestKeys (t : KBucketsTable K V) (target : KeyBytes) : ClosestIter K V K :=
  t.closestIter target fun entry => entry.1.key

def closest (t : KBucketsTable K V) (target : KeyBytes) : ClosestIter K V (EntryView K V) :=
  t.closestIter target fun entry => ⟨entry.1, entry.2⟩

end KBucketsTable

/-- What the holder of a present entry can do with it any number of times. -/
inductive PresentCall (V : Type) where
  | value (value : V)
  | update (status : NodeStatus) (now : Instant)

inductive PendingCall (V : Type) where
  | value (value : V)
  | update (status : NodeStatus)

/-- What a caller does with an entry, for each case it may find. -/
structure EntryUse (V : Type) where
  present : List (PresentCall V)
  removePresent : Bool
  pending : List (PendingCall V)
  removePending : Bool
  insert : Option (V × NodeStatus × Instant)

/-- An access to the table. The iterators are pulled for as many items as the caller likes. -/
inductive TableOp (K V : Type) where
  | entry (key : K) (now : Instant) (use : EntryUse V)
  | iter (clock : Nat → Instant) (items : Nat)
  | bucket (key : KeyBytes) (now : Instant)
  | closestKeys (target : KeyBytes) (clock : Nat → Instant) (items : Nat)
  | closest (target : KeyBytes) (clock : Nat → Instant) (items : Nat)
  | takeAppliedPending

namespace KBucketsTable

def presentCalls (ref : EntryRef K) : List (PresentCall V) → KBucketsTable K V →
    Except Panic (KBucketsTable K V)
  | [], t => .ok t
  | .value value :: rest, t => do presentCalls ref rest (← t.presentValue ref value)
  | .update status now :: rest, t => do presentCalls ref rest (← t.presentUpdate ref status now)

def pendingCalls (ref : EntryRef K) : List (PendingCall V) → KBucketsTable K V →
    Except Panic (KBucketsTable K V)
  | [], t => .ok t
  | .value value :: rest, t => do pendingCalls ref rest (← t.pendingValue ref value)
  | .update status :: rest, t => pendingCalls ref rest (t.pendingUpdate ref status)

def useEntry (t : KBucketsTable K V) (use : EntryUse V) : Entry K → Except Panic (KBucketsTable K V)
  | .present ref _ => do
      let t ← presentCalls ref use.present t
      if use.removePresent then .ok (← t.presentRemove ref).2 else .ok t
  | .pending ref _ => do
      let t ← pendingCalls ref use.pending t
      if use.removePending then .ok (← t.pendingRemove ref).2 else .ok t
  | .absent ref =>
    match use.insert with
    | some (value, status, now) => do .ok (← t.absentInsert ref value status now).2
    | none => .ok t

/-- One access, with what `take_applied_pending` hands out. -/
def exec (t : KBucketsTable K V) : TableOp K V →
    Except Panic (Option (AppliedPending K V) × KBucketsTable K V)
  | .entry key now use => do
      match ← t.entry key now with
      | (none, t) => .ok (none, t)
      | (some entry, t) => .ok (none, ← t.useEntry use entry)
  | .iter clock items => do .ok (none, (← t.iter clock items).2)
  | .bucket key now => do .ok (none, (← t.bucket key now).2)
  | .closestKeys target clock items => do
      .ok (none, (← (t.closestKeys target).pull clock items t).2.2)
  | .closest target clock items => do
      .ok (none, (← (t.closest target).pull clock items t).2.2)
  | .takeAppliedPending => .ok t.takeAppliedPending

end KBucketsTable
end RustLibp2p.Kad
