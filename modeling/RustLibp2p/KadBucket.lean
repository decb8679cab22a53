import Mathlib.Data.Nat.Bitwise
import Mathlib.Order.Lattice

/-! Keys of the DHT keyspace and their XOR distance. A key is 32 bytes, which the distance reads as
one 256-bit integer; the bucket of a key is the position of the highest bit of its distance. -/

namespace RustLibp2p.Kad

/-- The raw bytes of a key, as the big-endian integer the distance is computed from. -/
structure KeyBytes where
  bits : BitVec 256
  deriving DecidableEq

/-- A type whose values stand for keys of the keyspace. -/
class AsKeyBytes (α : Type) where
  keyBytes : α → KeyBytes

export AsKeyBytes (keyBytes)

instance : AsKeyBytes KeyBytes := ⟨id⟩

structure Distance where
  bits : BitVec 256

namespace Distance

theorem toNat_injective : Function.Injective fun d : Distance => d.bits.toNat := by
  intro d e heq
  cases d
  cases e
  exact congrArg mk (BitVec.eq_of_toNat_eq heq)

/-- Distances are compared as integers. -/
instance : LinearOrder Distance := LinearOrder.lift' (fun d => d.bits.toNat) toNat_injective

def zero : Distance := ⟨0⟩

/-- The number of zero bits above the highest one. -/
def leadingZeros (d : Distance) : Nat := if d.bits = 0 then 256 else 255 - Nat.log2 d.bits.toNat

/-- The integer part of the base 2 logarithm, `None` for distance zero. -/
def ilog2 (d : Distance) : Option Nat := if 1 ≤ 256 - d.leadingZeros then some (256 - d.leadingZeros - 1) else none

theorem log2_lt_256 (d : Distance) : Nat.log2 d.bits.toNat < 256 := by
  by_cases hz : d.bits.toNat = 0
  · rw [hz]
    decide
  · exact (Nat.log2_lt hz).2 d.bits.isLt

theorem ilog2_eq (d : Distance) : d.ilog2 = if d.bits = 0 then none else some (Nat.log2 d.bits.toNat) := by
  have hl := d.log2_lt_256
  unfold ilog2 leadingZeros
  by_cases hz : d.bits = 0
  · simp [hz]
  simp only [if_neg hz]
  rw [if_pos (by omega)]
  congr 1
  omega

variable {d : Distance}

theorem ilog2_eq_none_iff : d.ilog2 = none ↔ d.bits = 0 := by
  rw [ilog2_eq]
  split_ifs with hz
  · exact iff_of_true rfl hz
  · exact iff_of_false nofun hz

theorem ilog2_lt {i : Nat} (hl : d.ilog2 = some i) : i < 256 := by
  have hb := d.log2_lt_256
  rw [ilog2_eq] at hl
  split_ifs at hl
  cases hl
  exact hb

theorem ilog2_eq_some_iff {i : Nat} :
    d.ilog2 = some i ↔ d.bits.getLsbD i ∧ ∀ j, i < j → d.bits.getLsbD j = false := by
  simp only [BitVec.getLsbD]
  have hze : d.bits = 0 ↔ d.bits.toNat = 0 := by
    rw [← BitVec.toNat_inj]
    rfl
  rw [ilog2_eq]
  constructor
  · intro hl
    split_ifs at hl with h
    cases hl
    have hne : d.bits.toNat ≠ 0 := fun hz => h (hze.2 hz)
    refine ⟨Nat.testBit_log2 hne, fun j hj => Nat.testBit_lt_two_pow ?_⟩
    exact (Nat.log2_lt hne).1 hj
  · rintro ⟨hb, ha⟩
    have hne : d.bits.toNat ≠ 0 := by
      intro hz
      rw [hz, Nat.zero_testBit] at hb
      cases hb
    rw [if_neg fun h => hne (hze.1 h)]
    congr 1
    rcases Nat.lt_trichotomy (Nat.log2 d.bits.toNat) i with hlt | heq | hgt
    · rw [Nat.testBit_lt_two_pow ((Nat.log2_lt hne).1 hlt)] at hb
      cases hb
    · exact heq
    · have hs := Nat.testBit_log2 hne
      rw [ha _ hgt] at hs
      cases hs

theorem eq_of_ilog2_zero {x y : Distance} (hx : x.ilog2 = some 0) (hy : y.ilog2 = some 0) : x = y := by
  rw [ilog2_eq_some_iff] at hx hy
  have hb : x.bits = y.bits := by
    refine BitVec.eq_of_getLsbD_eq fun i _ => ?_
    cases i with
    | zero => rw [hx.1, hy.1]
    | succ i => rw [hx.2 _ i.succ_pos, hy.2 _ i.succ_pos]
  cases x
  exact congrArg mk hb

end Distance

namespace KeyBytes

def distance (a b : KeyBytes) : Distance := ⟨a.bits ^^^ b.bits⟩

theorem distance_comm (a b : KeyBytes) : a.distance b = b.distance a := by simp [distance, BitVec.xor_comm]

theorem distance_eq_zero_iff {a b : KeyBytes} : (a.distance b).bits = 0 ↔ a = b := by
  cases a
  cases b
  simp [distance]

theorem distance_injective (a : KeyBytes) : Function.Injective a.distance := by
  intro b c heq
  have hb : a.bits ^^^ b.bits = a.bits ^^^ c.bits := congrArg Distance.bits heq
  cases b
  cases c
  exact congrArg mk ((BitVec.xor_right_inj _).1 hb)

theorem distance_xor_distance (a b c : KeyBytes) :
    (a.distance b).bits ^^^ (a.distance c).bits = (c.distance b).bits := by
  apply BitVec.eq_of_getLsbD_eq
  intro i _
  simp only [distance, BitVec.getLsbD_xor]
  cases a.bits.getLsbD i <;> cases b.bits.getLsbD i <;> cases c.bits.getLsbD i <;> rfl

end KeyBytes

/-! A single bucket of the routing table: one vector of nodes with a split index. The nodes before the
index are disconnected and the nodes from it on are connected, each part from the least to the most
recently (dis)connected one. Every branch of the source that would panic is an explicit failure. -/

/-- Why a call did not return. -/
inductive Panic where
  | unreachable (message : String)
  | expect (message : String)
  | debugAssert
  | outOfBounds
  | underflow
  deriving DecidableEq

/-- A point in time, in milliseconds. -/
abbrev Instant := Nat

structure KBucketConfig where
  bucketSize : Nat
  /-- The setter takes a `NonZeroUsize`. -/
  bucketSize_pos : 0 < bucketSize
  pendingTimeout : Nat

inductive NodeStatus where
  | connected
  | disconnected
  deriving DecidableEq

structure Node (K V : Type) where
  key : K
  value : V
  deriving DecidableEq

structure PendingNode (K V : Type) where
  node : Node K V
  status : NodeStatus
  replace : Instant

structure KBucket (K V : Type) where
  nodes : List (Node K V)
  capacity : Nat
  firstConnectedPos : Option Nat
  pending : Option (PendingNode K V)
  pendingTimeout : Nat

inductive InsertResult (K : Type) where
  | inserted
  | pending (disconnected : K)
  | full

structure AppliedPending (K V : Type) where
  inserted : Node K V
  evicted : Option (Node K V)
  deriving DecidableEq

def vecRemove {α : Type} (xs : List α) (index : Nat) : Except Panic (α × List α) :=
  match xs[index]? with
  | some x => .ok (x, xs.eraseIdx index)
  | none => .error .outOfBounds

def vecInsert {α : Type} (xs : List α) (index : Nat) (x : α) : Except Panic (List α) :=
  if index ≤ xs.length then .ok (xs.insertIdx index x) else .error .outOfBounds

/-- `x - 1` with the overflow check on. -/
def checkedPred (x : Nat) (panic : Panic) : Except Panic Nat := if x = 0 then .error panic else .ok (x - 1)

namespace KBucket

variable {K V : Type} [AsKeyBytes K]

def new (config : KBucketConfig) : KBucket K V := ⟨[], config.bucketSize, none, none, config.pendingTimeout⟩

section

variable (b : KBucket K V)

def status (pos : Nat) : NodeStatus :=
  if b.firstConnectedPos.any (· ≤ pos) then .connected else .disconnected

/-- The nodes with their status, in the order of the vector. -/
def iter : List (Node K V × NodeStatus) := b.nodes.mapIdx fun pos node => (node, b.status pos)

def position (key : K) : Option Nat := b.nodes.findIdx? fun node => keyBytes node.key = keyBytes key

def asPending (key : K) : Option (PendingNode K V) :=
  b.pending.filter fun pending => keyBytes pending.node.key = keyBytes key

end

section

variable (b : KBucket K V) (now : Instant)

def insert (node : Node K V) : NodeStatus → Except Panic (InsertResult K × KBucket K V)
  | .connected =>
    if b.capacity ≤ b.nodes.length then
      if b.firstConnectedPos = some 0 ∨ b.pending.isSome then .ok (.full, b)
      else
        match b.nodes with
        | [] => .error .outOfBounds
        | first :: _ => .ok (.pending first.key, { b with pending := some ⟨node, .connected, now + b.pendingTimeout⟩ })
    else .ok (.inserted, { b with
      firstConnectedPos := b.firstConnectedPos.or (some b.nodes.length)
      nodes := b.nodes ++ [node] })
  | .disconnected =>
    if b.capacity ≤ b.nodes.length then .ok (.full, b)
    else
      match b.firstConnectedPos with
      | some p => do
          let nodes ← vecInsert b.nodes p node
          .ok (.inserted, { b with nodes := nodes, firstConnectedPos := some (p + 1) })
      | none => .ok (.inserted, { b with nodes := b.nodes ++ [node] })

def remove (key : K) : Except Panic (Option (Node K V × NodeStatus × Nat) × KBucket K V) :=
  match b.position key with
  | none => .ok (none, b)
  | some pos => do
      let status := b.status pos
      let (node, nodes) ← vecRemove b.nodes pos
      let firstConnectedPos ← match status with
        | .connected =>
          -- It was the last connected node.
          if b.firstConnectedPos = some pos ∧ pos = nodes.length then .ok none
          else .ok b.firstConnectedPos
        | .disconnected =>
          match b.firstConnectedPos with
          | some p => do .ok (some (← checkedPred p .underflow))
          | none => .ok none
      .ok (some (node, status, pos), { b with nodes := nodes, firstConnectedPos := firstConnectedPos })

def update (key : K) (status : NodeStatus) : Except Panic (KBucket K V) := do
  match ← b.remove key with
  | (none, b) => .ok b
  | (some (node, _, pos), b) =>
    -- The least recently connected node is back: the pending node loses its claim.
    let b := if pos = 0 ∧ status = .connected then { b with pending := none } else b
    match ← b.insert now node status with
    | (.inserted, b) => .ok b
    | _ => .error (.unreachable "The node is removed before being (re)inserted.")

/-- The part of `apply_pending` for a full bucket: the first node makes room for the pending one,
unless it has connected in the meantime. -/
def replaceFirst (pending : PendingNode K V) : Except Panic (Option (AppliedPending K V) × KBucket K V) :=
  if b.status 0 = .connected then .ok (none, b)
  else if b.firstConnectedPos = some 0 then .error .debugAssert
  else if pending.status = .connected then do
    let (evicted, nodes) ← vecRemove b.nodes 0
    let firstConnectedPos :=
      match b.firstConnectedPos with
      | none => some nodes.length
      | some p => if 1 ≤ p then some (p - 1) else none
    .ok (some ⟨pending.node, some evicted⟩, { b with
      nodes := nodes ++ [pending.node], firstConnectedPos := firstConnectedPos })
  else
    match b.firstConnectedPos with
    | some p => do
        let insertPos ← checkedPred p (.expect "by (*)")
        let (evicted, nodes) ← vecRemove b.nodes 0
        let nodes ← vecInsert nodes insertPos pending.node
        .ok (some ⟨pending.node, some evicted⟩, { b with nodes := nodes })
    | none => do
        let (evicted, nodes) ← vecRemove b.nodes 0
        .ok (some ⟨pending.node, some evicted⟩, { b with nodes := nodes ++ [pending.node] })

/-- The part of `apply_pending` after the due pending node is taken out. -/
def applyDue (pending : PendingNode K V) : Except Panic (Option (AppliedPending K V) × KBucket K V) :=
  if b.capacity ≤ b.nodes.length then b.replaceFirst pending
  else do
    match ← b.insert now pending.node pending.status with
    | (.inserted, b) => .ok (some ⟨pending.node, none⟩, b)
    | _ => .error (.unreachable "Bucket is not full.")

def applyPending : Except Panic (Option (AppliedPending K V) × KBucket K V) :=
  match b.pending with
  | none => .ok (none, b)
  | some pending =>
    if pending.replace ≤ now then { b with pending := none }.applyDue now pending
    else .ok (none, b)

def updatePending (status : NodeStatus) : KBucket K V :=
  { b with pending := b.pending.map fun pending => { pending with status := status } }

def removePending : Option (PendingNode K V) × KBucket K V := (b.pending, { b with pending := none })

end
end KBucket
end RustLibp2p.Kad
