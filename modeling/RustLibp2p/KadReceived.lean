import RustLibp2p.KadClosest
import RustLibp2p.KadWire

/-! A record that another peer wants stored: for how long it is kept. The farther the local node is from the key, the
sooner the record expires. -/

namespace RustLibp2p.Kad

/-- Whether a received record is stored at once or left to the application. -/
inductive StoreInserts where
  | unfiltered
  | filterBoth

inductive Effect (Peer : Type) where
  | put (record : Record Peer)
  | inboundRequest (record : Option (Record Peer))
  | putRecordRes (key : RecordKey) (value : List UInt8)
  | reset
  /-- Told to the replication job, if there is one. -/
  | skip (key : RecordKey)

/-- The part of the behaviour that decides it. A key of a record is hashed into the keyspace, and the store may refuse
a record. -/
structure Receiver (Peer K V : Type) where
  kbuckets : KBucketsTable K V
  localId : Peer
  hash : RecordKey → KeyBytes
  accepts : Record Peer → Bool
  recordTtl : Option Nat
  replicationFactor : Nat
  recordFiltering : StoreInserts

/-- Shifts the whole seconds, a `u64`; a shift by its width or more leaves nothing. -/
def expDecrease (ttl exp : Nat) : Nat := if exp < 64 then ttl / nanosPerSec / 2 ^ exp * nanosPerSec else 0

/-- The order of `Option`, in which `None` comes first. -/
def optionMin : Option Nat → Option Nat → Option Nat
  | some a, some b => some (min a b)
  | _, _ => none

namespace Receiver

variable {Peer K V : Type} [AsKeyBytes K] [DecidableEq Peer] (receiver : Receiver Peer K V) (now : Nat)
  (record : Record Peer)

def expiration : Option Nat :=
  let numBetween := receiver.kbuckets.countNodesBetween (receiver.hash record.key)
  let numBeyondK := (max receiver.replicationFactor numBetween - receiver.replicationFactor) % 2 ^ 32
  receiver.recordTtl.map fun ttl => now + expDecrease ttl numBeyondK

def recordReceived : List (Effect Peer) :=
  if record.publisher = some receiver.localId then [.putRecordRes record.key record.value]
  else
    let expiration := receiver.expiration now record
    let record := { record with expires := optionMin (record.expires.or expiration) expiration }
    if record.isExpired now then [.skip record.key, .putRecordRes record.key record.value]
    else
      match receiver.recordFiltering with
      | .unfiltered =>
        if receiver.accepts record then
          [.skip record.key, .put record, .inboundRequest none, .putRecordRes record.key record.value]
        else [.skip record.key, .put record, .reset]
      | .filterBoth => [.skip record.key, .inboundRequest (some record), .putRecordRes record.key record.value]

/-- The smaller of the expiries that are set. -/
def smallerExpiry : Option Nat → Option Nat → Option Nat
  | some a, some b => some (min a b)
  | a, b => a.or b

theorem optionMin_or (own configured : Option Nat) : optionMin (own.or configured) configured =
    if configured = none then none else smallerExpiry own configured := by
  cases own <;> cases configured <;> simp [optionMin, smallerExpiry]

/-- A record is given to the store, or to the application to store. -/
def HandedOn (effects : List (Effect Peer)) (stored : Record Peer) : Prop :=
  .put stored ∈ effects ∨ .inboundRequest (some stored) ∈ effects

theorem handedOn_iff {stored : Record Peer} : HandedOn (receiver.recordReceived now record) stored ↔
    record.publisher ≠ some receiver.localId ∧ stored.isExpired now = false ∧ stored = { record with
      expires := optionMin (record.expires.or (receiver.expiration now record)) (receiver.expiration now record) } := by
  unfold recordReceived HandedOn
  by_cases hl : record.publisher = some receiver.localId
  · simp [hl]
  rw [if_neg hl]
  dsimp only
  generalize { record with expires := optionMin _ _ } = changed
  by_cases he : changed.isExpired now
  · have hnot : ¬ (stored.isExpired now = false ∧ stored = changed) := by
      rintro ⟨hf, rfl⟩
      cases he.symm.trans hf
    simp [he, hnot]
  · have hf : stored = changed → stored.isExpired now = false := fun heq => heq ▸ Bool.eq_false_iff.2 he
    cases receiver.recordFiltering <;> cases receiver.accepts changed <;> simpa [he, hl] using hf

/-- A record that is handed on has the smaller of the expiries that are set, unless only the record has one. -/
theorem recordReceived_expires_iff : (∀ stored, HandedOn (receiver.recordReceived now record) stored →
      stored.expires = smallerExpiry record.expires (receiver.expiration now record)) ↔
    record.publisher = some receiver.localId ∨ receiver.recordTtl ≠ none ∨ record.expires = none := by
  have hs : receiver.expiration now record = none ↔ receiver.recordTtl = none := Option.map_eq_none_iff
  constructor
  · intro hr
    by_contra hn
    simp only [not_or, not_not] at hn
    obtain ⟨ho, hf, how⟩ := hn
    -- the record is kept for ever
    have hw := hr { record with expires := none } (receiver.handedOn_iff now record |>.mpr ⟨ho, rfl, by
      rw [optionMin_or, if_pos (hs.2 hf)]⟩)
    rw [hs.2 hf] at hw
    cases he : record.expires with
    | none => exact how he
    | some =>
      rw [he] at hw
      cases hw
  · intro hr _ hst
    obtain ⟨ho, -, rfl⟩ := (receiver.handedOn_iff now record).1 hst
    rw [optionMin_or]
    split_ifs with hf
    · rcases hr with hl | ht | how
      · exact absurd hl ho
      · exact absurd (hs.1 hf) ht
      · rw [hf, how]
        rfl
    · rfl

/-- A node that gives records no lifetime. -/
def lenient : Receiver Nat KeyBytes Unit :=
  ⟨.new ⟨0⟩ ⟨1, by decide, 10⟩, 1, fun _ => ⟨1⟩, fun _ => true, none, 20, .unfiltered⟩

theorem recordReceived_for_ever :
    HandedOn (lenient.recordReceived 3 ⟨⟨[]⟩, [], some 2, some 5⟩) ⟨⟨[]⟩, [], some 2, none⟩ :=
  .inl (List.mem_cons_of_mem _ List.mem_cons_self)

end Receiver
end RustLibp2p.Kad
