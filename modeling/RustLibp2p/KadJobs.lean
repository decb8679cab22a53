import RustLibp2p.KadStore

/-! Periodic jobs of the DHT. A job that is due takes a snapshot of the records in the store and then
hands them out one for each poll. Wakers are left out: whether a timer has fired by the time of a poll is
part of the poll. -/

namespace RustLibp2p.Kad

/-- The order in which a hash map or a hash set happens to be read. -/
structure IterOrder (α : Type) where
  apply : List α → List α
  perm : ∀ items, (apply items).Perm items

def IterOrder.asListed {α : Type} : IterOrder α := ⟨id, fun _ => .refl _⟩

inductive PeriodicJobState (α : Type) where
  | running (records : List α)
  | waiting (deadline : Nat)

structure PeriodicJob (α : Type) where
  interval : Nat
  state : PeriodicJobState α

/-- A poll: the time, whether the delay the job waits for is over, whether the delay that is set for the next run
is over at once, and the order in which the store is read. -/
structure PollInput (α : Type) where
  now : Nat
  elapsed : Bool
  rearmed : Bool
  order : IterOrder α

/-- The answer to a poll, or the failure of its assertion. -/
inductive JobAnswer (α : Type) where
  | ready (record : α)
  | pending
  | panicked

/-- The loop over what is left of the snapshot: expired records are removed up to the first one that is not. -/
def drain {α σ : Type} (isExpired : α → Bool) (remove : α → σ → σ) : List α → σ → Option α × List α × σ
  | [], store => (none, [], store)
  | record :: records, store =>
    if isExpired record then drain isExpired remove records (remove record store) else (some record, records, store)

namespace PeriodicJob

variable {α σ : Type}

def checkReady (job : PeriodicJob α) (now : Nat) (elapsed : Bool) : Bool :=
  match job.state with
  | .running _ => false
  | .waiting deadline => decide (deadline ≤ now) || elapsed

def pending (job : PeriodicJob α) : List α :=
  match job.state with
  | .running records => records
  | .waiting _ => []

/-- The second half of `poll`, the same in both jobs. -/
def advance (isExpired : α → Bool) (remove : α → σ → σ) (input : PollInput α) (job : PeriodicJob α) (store : σ) :
    JobAnswer α × PeriodicJob α × σ :=
  match job.state with
  | .waiting _ => (.pending, job, store)
  | .running records =>
    match drain isExpired remove records store with
    | (some record, rest, store) => (.ready record, { job with state := .running rest }, store)
    | (none, _, store) =>
      let job : PeriodicJob α := { job with state := .waiting (input.now + job.interval) }
      (if job.checkReady input.now input.rearmed then .panicked else .pending, job, store)

end PeriodicJob

structure PutRecordJob (Peer : Type) where
  localId : Peer
  nextPublish : Option Nat
  publishInterval : Option Nat
  recordTtl : Option Nat
  skipped : List RecordKey
  inner : PeriodicJob (Record Peer)

variable {Peer Addr : Type}

namespace PutRecordJob

variable [DecidableEq Peer]

def new (localId : Peer) (replicateInterval : Nat) (publishInterval recordTtl : Option Nat) (now : Nat) :
    PutRecordJob Peer where
  localId := localId
  nextPublish := publishInterval.map (now + ·)
  publishInterval := publishInterval
  recordTtl := recordTtl
  skipped := []
  inner := ⟨replicateInterval, .waiting (now + replicateInterval)⟩

def skip (job : PutRecordJob Peer) (key : RecordKey) : PutRecordJob Peer :=
  { job with skipped := job.skipped.insert key }

/-- Whether a record is part of a run, and the expiry it is sent with. -/
def select (job : PutRecordJob Peer) (publish : Bool) (now : Nat) (record : Record Peer) : Option (Record Peer) :=
  let isPublisher : Bool := record.publisher = some job.localId
  if job.skipped.contains record.key || (!publish && isPublisher) then none
  else if publish && isPublisher then
    some { record with expires := record.expires.or (job.recordTtl.map (now + ·)) }
  else some record

section

variable (job : PutRecordJob Peer) (store : MemoryStore Peer Addr) (input : PollInput (Record Peer))

/-- The first half of `poll`: the job starts a run. -/
def start : PutRecordJob Peer :=
  let publish : Bool := job.nextPublish.any (· ≤ input.now)
  let records := (input.order.apply (store.records.entries.map Prod.snd)).filterMap (job.select publish input.now)
  { job with
    nextPublish := if publish then job.publishInterval.map (input.now + ·) else job.nextPublish
    skipped := []
    inner := { job.inner with state := .running records } }

def poll : JobAnswer (Record Peer) × PutRecordJob Peer × MemoryStore Peer Addr :=
  let job := if job.inner.checkReady input.now input.elapsed then job.start store input else job
  let polled := job.inner.advance (fun record => record.isExpired input.now)
    (fun record store => store.remove record.key) input store
  (polled.1, { job with inner := polled.2.1 }, polled.2.2)

end
end PutRecordJob

structure AddProviderJob (Peer Addr : Type) where
  inner : PeriodicJob (ProviderRecord Peer Addr)

namespace AddProviderJob

def new (interval now : Nat) : AddProviderJob Peer Addr := ⟨⟨interval, .waiting (now + interval)⟩⟩

/-- The first half of `poll`: the job starts a run. -/
def start (job : AddProviderJob Peer Addr) (store : MemoryStore Peer Addr)
    (input : PollInput (ProviderRecord Peer Addr)) : AddProviderJob Peer Addr :=
  ⟨{ job.inner with state := .running (input.order.apply store.provided.elems) }⟩

def poll [DecidableEq Peer] (job : AddProviderJob Peer Addr) (store : MemoryStore Peer Addr)
    (input : PollInput (ProviderRecord Peer Addr)) :
    JobAnswer (ProviderRecord Peer Addr) × AddProviderJob Peer Addr × MemoryStore Peer Addr :=
  let job := if job.inner.checkReady input.now input.elapsed then job.start store input else job
  let polled := job.inner.advance (fun record => record.isExpired input.now)
    (fun record store => store.removeProvider record.key record.provider) input store
  (polled.1, ⟨polled.2.1⟩, polled.2.2)

end AddProviderJob

/-! ### The jobs and the store together -/

structure Republishing (Peer Addr : Type) where
  store : MemoryStore Peer Addr
  putRecordJob : PutRecordJob Peer
  addProviderJob : AddProviderJob Peer Addr

inductive RepublishingInput (Peer Addr : Type) where
  | call (call : StoreCall Peer Addr)
  | skip (key : RecordKey)
  | pollPut (input : PollInput (Record Peer))
  | pollAdd (input : PollInput (ProviderRecord Peer Addr))

inductive RepublishingOutput (Peer Addr : Type) where
  | called (result : Except StoreError Unit)
  | skipped
  | put (answer : JobAnswer (Record Peer))
  | add (answer : JobAnswer (ProviderRecord Peer Addr))

def RepublishingInput.pollTime {Peer Addr : Type} : RepublishingInput Peer Addr → Option Nat
  | .call _ | .skip _ => none
  | .pollPut input => some input.now
  | .pollAdd input => some input.now

namespace Republishing

variable [DecidableEq Peer]

def new (localId : Peer) (config : MemoryStoreConfig) (replicateInterval : Nat)
    (publishInterval recordTtl : Option Nat) (providerInterval now : Nat) : Republishing Peer Addr where
  store := .withConfig localId config
  putRecordJob := .new localId replicateInterval publishInterval recordTtl now
  addProviderJob := .new providerInterval now

def step (system : Republishing Peer Addr) :
    RepublishingInput Peer Addr → RepublishingOutput Peer Addr × Republishing Peer Addr
  | .call call =>
    let done := system.store.exec call
    (.called done.1, { system with store := done.2 })
  | .skip key => (.skipped, { system with putRecordJob := system.putRecordJob.skip key })
  | .pollPut input =>
    let polled := system.putRecordJob.poll system.store input
    (.put polled.1, { system with putRecordJob := polled.2.1, store := polled.2.2 })
  | .pollAdd input =>
    let polled := system.addProviderJob.poll system.store input
    (.add polled.1, { system with addProviderJob := polled.2.1, store := polled.2.2 })

end Republishing

/-! What the periodic jobs remove from the store. A job deletes by the key of a record in its snapshot,
under which the store may have been given a record that outlives that one. -/

open Transition MemoryStore List Option OrdMap Republishing PeriodicJob

/-- What expires at the first time has expired whenever what expires at the second time has. -/
def ExpiresNoLater : Option Nat → Option Nat → Prop
  | _, none => True
  | none, some _ => False
  | some time, some later => time ≤ later

instance : ∀ expires expires' : Option Nat, Decidable (ExpiresNoLater expires expires')
  | _, none => .isTrue trivial
  | none, some _ => .isFalse id
  | some time, some later => inferInstanceAs (Decidable (time ≤ later))

theorem ExpiresNoLater.refl (expires : Option Nat) : ExpiresNoLater expires expires := by
  cases expires with
  | none => trivial
  | some time => exact Nat.le_refl time

variable {now : Nat}

theorem ExpiresNoLater.expired {expires expires' : Option Nat} (hle : ExpiresNoLater expires expires')
    (he : expires'.any (· ≤ now)) : expires.any (· ≤ now) := by
  cases expires' with
  | none => cases he
  | some =>
    cases expires with
    | none => exact hle.elim
    | some =>
      rw [any_some, decide_eq_true_eq] at he ⊢
      exact Nat.le_trans hle he

/-! ### The loop of a poll -/

section Loop

variable {α σ : Type} {isExpired : α → Bool} {remove : α → σ → σ} (Inv : List α → σ → Prop)

section

variable (hrem : ∀ record records store, Inv (record :: records) store → isExpired record = true → Inv records
  (remove record store)) (hfew : ∀ records records' store, records' ⊆ records → Inv records store → Inv records' store)
include hrem hfew

variable {store : σ}

theorem drain_invariant {records : List α} (hs : Inv records store) :
    Inv (drain isExpired remove records store).2.1 (drain isExpired remove records store).2.2 := by
  induction records generalizing store with
  | nil => exact hs
  | cons record records ih =>
    rw [drain]
    split_ifs with he
    · exact ih (hrem record records store hs he)
    · exact hfew _ _ _ (subset_cons_self _ _) hs

theorem advance_invariant {job : PeriodicJob α} (hs : Inv job.pending store) (input : PollInput α) :
    Inv (job.advance isExpired remove input store).2.1.pending (job.advance isExpired remove input store).2.2 := by
  unfold pending at hs
  unfold advance
  cases hst : job.state with
  | waiting =>
    rw [hst] at hs
    simp only [pending, hst]
    exact hs
  | running records =>
    rw [hst] at hs
    have hd := drain_invariant Inv hrem hfew hs
    simp only
    generalize drain isExpired remove records store = drained at hd ⊢
    obtain ⟨found, _, _⟩ := drained
    cases found with
    | none => exact hfew _ _ _ (nil_subset _) hd
    | some => exact hd

end
end Loop

/-! ### What calls do to the store -/

namespace MemoryStore

variable {store : MemoryStore Peer Addr}

theorem get_remove (store : MemoryStore Peer Addr) (key key' : RecordKey) :
    (store.remove key).get key' = if key' = key then none else store.get key' :=
  get?_erase ..

theorem providersOf_put (store : MemoryStore Peer Addr) (record : Record Peer) (key : RecordKey) :
    (store.put record).2.providersOf key = store.providersOf key := by
  rcases store.put_eq record with ⟨_, hp⟩ | hp
  · rw [hp]
  · rw [hp]
    rfl

variable {key : RecordKey}

theorem get_of_put {record record' : Record Peer} (hg : (store.put record).2.get key = some record') :
    store.get key = some record' ∨ record' = record ∧ key = record.key := by
  rcases store.put_eq record with ⟨_, hp⟩ | hp
  · rw [hp] at hg
    exact .inl hg
  · rw [hp] at hg
    exact (get?_insert_iff.1 hg).symm.imp And.right And.symm

theorem providersOf_setProviders (store : MemoryStore Peer Addr) (key key' : RecordKey)
    (provs : List (ProviderRecord Peer Addr)) :
    (store.setProviders key provs).providersOf key' = if key' = key then provs else store.providersOf key' := by
  unfold setProviders
  split_ifs with he heq heq
  · simp [providersOf, get?_erase, heq, isEmpty_iff.1 he]
  · simp [providersOf, get?_erase, heq]
  all_goals simp [providersOf, get?_insert, heq]

variable [DecidableEq Peer]

section

variable (store : MemoryStore Peer Addr) (record : ProviderRecord Peer Addr)

theorem get_addProvider (key : RecordKey) : (store.addProvider record).2.get key = store.get key := by
  obtain ⟨_, _, hp, -⟩ := store.placeProvider_eq record (store.providersOf record.key)
  rcases store.addProvider_eq record with ⟨_, ha⟩ | ha
  · rw [ha]
  · rw [ha, hp]
    rfl

theorem get_removeProvider (key : RecordKey) (prov : Peer) (key' : RecordKey) :
    (store.removeProvider key prov).get key' = store.get key' := by
  rcases store.removeProvider_eq key prov with hs | ⟨_, _, hse⟩
  · rw [hs]
  · rw [hse, setProviders]
    split_ifs <;> rfl

end

variable {record p : ProviderRecord Peer Addr}

theorem mem_of_mem_addProvider (hp : p ∈ (store.addProvider record).2.providersOf key) :
    p ∈ store.providersOf key ∨ p = record ∧ key = record.key := by
  obtain ⟨_, _, hpl, hn, -⟩ := store.placeProvider_eq record (store.providersOf record.key)
  rcases store.addProvider_eq record with ⟨_, ha⟩ | ha
  · rw [ha] at hp
    exact .inl hp
  rw [ha, hpl, providersOf, get?_insert] at hp
  split_ifs at hp with heq
  · rcases hn p hp with ho | rfl
    · exact .inl (heq ▸ ho)
    · exact .inr ⟨rfl, heq⟩
  · exact .inl hp

theorem mem_removeProvider (hs : store.Consistent) {key' : RecordKey} {prov : Peer} :
    p ∈ (store.removeProvider key prov).providersOf key' ↔
      p ∈ store.providersOf key' ∧ ¬(key' = key ∧ p.provider = prov) := by
  have honP := (hs.listed key).onePerPeer
  unfold removeProvider
  cases hg : store.providers.get? key with
  | none =>
    refine (and_iff_left_of_imp ?_).symm
    rintro hp ⟨rfl, -⟩
    rw [providersOf, hg] at hp
    exact not_mem_nil hp
  | some providers =>
    have hpr : store.providersOf key = providers := by rw [providersOf, hg, getD_some]
    rw [hpr] at honP
    simp only
    split
    next hf =>
      rw [providersOf_setProviders]
      split_ifs with heq
      · subst heq
        rw [hpr]
        refine (and_iff_left_of_imp ?_).symm
        rintro hp ⟨-, hpv⟩
        exact find?_eq_none.1 hf p hp (decide_eq_true hpv)
      · simp [heq]
    next =>
      rw [providersOf_setProviders]
      by_cases heq : key' = key
      · subst heq
        rw [if_pos rfl, mem_eraseP_provider honP, hpr]
        simp
      · rw [if_neg heq]
        simp [heq, providersOf]

end MemoryStore

/-- Of the records and provider records that were in the store, those that are gone had expired. -/
structure OnlyExpiredRemoved (now : Nat) (store store' : MemoryStore Peer Addr) : Prop where
  records : ∀ key record, store.get key = some record → store'.get key = some record ∨ record.isExpired now = true
  providers : ∀ key p, p ∈ store.providersOf key → p ∈ store'.providersOf key ∨ p.isExpired now = true

/-- The store has no record that outlives the one in the snapshot, unless the snapshot has given an expiry to a
record of the local peer that has none. -/
def RecordCovered (localId : Peer) (store : MemoryStore Peer Addr) (snapshot : Record Peer) : Prop :=
  ∀ record, store.get snapshot.key = some record →
    ExpiresNoLater record.expires snapshot.expires ∨ snapshot.publisher = some localId ∧ record.expires = none

/-- The store has no provider record that outlives the one in the snapshot. -/
def ProviderCovered (store : MemoryStore Peer Addr) (snapshot : ProviderRecord Peer Addr) : Prop :=
  ∀ p ∈ store.providersOf snapshot.key, p.provider = snapshot.provider → ExpiresNoLater p.expires snapshot.expires

/-- The store is in step with itself, and both snapshots cover it. -/
structure Covered (system : Republishing Peer Addr) : Prop where
  consistent : system.store.Consistent
  records : ∀ snapshot ∈ system.putRecordJob.inner.pending,
    RecordCovered system.putRecordJob.localId system.store snapshot
  providers : ∀ snapshot ∈ system.addProviderJob.inner.pending, ProviderCovered system.store snapshot

section

variable (system : Republishing Peer Addr)

/-- The record that is put does not outlive one of the same key that is still in the snapshot. -/
def PutAllowed (record : Record Peer) : Prop :=
  ∀ snapshot ∈ system.putRecordJob.inner.pending, snapshot.key = record.key →
    ExpiresNoLater record.expires snapshot.expires

/-- The provider record that is added does not outlive one of the same key and peer that is still in the
snapshot. -/
def AddAllowed (record : ProviderRecord Peer Addr) : Prop :=
  ∀ snapshot ∈ system.addProviderJob.inner.pending, snapshot.identity = record.identity →
    ExpiresNoLater record.expires snapshot.expires

/-- The poll comes before the expiry that the snapshot has given to a record of the local peer without
one. -/
def PollAllowed (now : Nat) : Prop :=
  system.putRecordJob.recordTtl ≠ some 0 ∧
    ∀ snapshot ∈ system.putRecordJob.inner.pending, snapshot.publisher = some system.putRecordJob.localId →
      (system.store.get snapshot.key).any (fun record => record.expires = none) = true →
      snapshot.isExpired now = false

def Allowed : RepublishingInput Peer Addr → Prop
  | .call (.put record) => PutAllowed system record
  | .call (.addProvider record) => AddAllowed system record
  | .call (.remove _) | .call (.removeProvider _ _) | .skip _ | .pollAdd _ => True
  | .pollPut input => PollAllowed system input.now

end

instance [DecidableEq Peer] (system : Republishing Peer Addr) : ∀ input, Decidable (Allowed system input)
  | .call (.put _) | .call (.addProvider _) => inferInstanceAs (Decidable (∀ snapshot ∈ _, _ = _ → ExpiresNoLater _ _))
  | .call (.remove _) | .call (.removeProvider _ _) | .skip _ | .pollAdd _ => .isTrue trivial
  | .pollPut _ => inferInstanceAs (Decidable (_ ∧ ∀ snapshot ∈ _, _ = _ → _ = true → _ = false))

theorem OnlyExpiredRemoved.refl (now : Nat) (store : MemoryStore Peer Addr) : OnlyExpiredRemoved now store store :=
  ⟨fun _ _ hg => .inl hg, fun _ _ hp => .inl hp⟩

/-- How far the put job has come with a poll that began with the first store. -/
structure RecordsPolled (localId : Peer) (now : Nat) (store : MemoryStore Peer Addr) (records : List (Record Peer))
    (store' : MemoryStore Peer Addr) : Prop where
  consistent : store'.Consistent
  removed : OnlyExpiredRemoved now store store'
  providers : ∀ key, store'.providersOf key = store.providersOf key
  due : ∀ snapshot ∈ records, RecordCovered localId store' snapshot ∧
    (snapshot.isExpired now = true → ∀ record, store.get snapshot.key = some record → record.isExpired now = true)

variable {localId : Peer} {store store' : MemoryStore Peer Addr} {snapshot : Record Peer}

theorem RecordsPolled.remove {records : List (Record Peer)}
    (hp : RecordsPolled localId now store (snapshot :: records) store')
    (he : snapshot.isExpired now) :
    RecordsPolled localId now store records (store'.remove snapshot.key) where
  __ := hp
  consistent := hp.consistent.remove _
  removed := by
    refine ⟨fun key record hg => ?_, hp.removed.providers⟩
    rw [get_remove]
    split_ifs with heq
    · subst heq
      exact .inr ((hp.due snapshot mem_cons_self).2 he record hg)
    · exact hp.removed.records key record hg
  due := by
    intro other ho
    obtain ⟨hc, hd⟩ := hp.due other (mem_cons_of_mem _ ho)
    refine ⟨fun record hg => ?_, hd⟩
    rw [get_remove] at hg
    split_ifs at hg
    exact hc record hg

theorem RecordsPolled.fewer {records records' : List (Record Peer)} (hfew : records' ⊆ records)
    (hp : RecordsPolled localId now store records store') : RecordsPolled localId now store records' store' :=
  ⟨hp.consistent, hp.removed, hp.providers, fun snapshot hs =>
    hp.due snapshot (hfew hs)⟩

/-- How far the provider job has come with a poll that began with the first store. -/
structure ProvidersPolled (now : Nat) (store : MemoryStore Peer Addr) (snapshots : List (ProviderRecord Peer Addr))
    (store' : MemoryStore Peer Addr) : Prop where
  consistent : store'.Consistent
  removed : OnlyExpiredRemoved now store store'
  records : ∀ key, store'.get key = store.get key
  covered : ∀ snapshot ∈ snapshots, ProviderCovered store' snapshot

theorem ProvidersPolled.fewer {snapshots snapshots' : List (ProviderRecord Peer Addr)} (hfew : snapshots' ⊆ snapshots)
    (hp : ProvidersPolled now store snapshots store') : ProvidersPolled now store snapshots' store' :=
  ⟨hp.consistent, hp.removed, hp.records, fun snapshot hs =>
    hp.covered snapshot (hfew hs)⟩

theorem providerCovered_of_mem (hs : store.Consistent)
    {snapshot : ProviderRecord Peer Addr} (hsn : snapshot ∈ store.provided) : ProviderCovered store snapshot := by
  intro p hp hpr
  have hl := ((hs.provided_iff snapshot).1 hsn).2
  have hn := (hs.listed snapshot.key).onePerPeer
  obtain rfl : p = snapshot := inj_on_of_nodup_map hn hp hl hpr
  exact .refl _

variable [DecidableEq Peer] {system : Republishing Peer Addr}

theorem Covered.call (hsystem : Covered system) {call : StoreCall Peer Addr} (hallowed : Allowed system (.call call)) :
    Covered { system with store := (system.store.exec call).2 } := by
  refine ⟨hsystem.consistent.exec call, ?_, ?_⟩
  · intro snapshot hs record hg
    have hc := hsystem.records snapshot hs
    cases call with
    | put =>
      rcases get_of_put hg with ho | ⟨rfl, hk⟩
      · exact hc record ho
      · exact .inl (hallowed snapshot hs hk)
    | remove =>
      rw [exec, get_remove] at hg
      split_ifs at hg
      exact hc record hg
    | addProvider => exact hc record ((get_addProvider _ _ _).symm.trans hg)
    | removeProvider => exact hc record ((get_removeProvider _ _ _ _).symm.trans hg)
  · intro snapshot hs p hp hpr
    have hc := hsystem.providers snapshot hs
    cases call with
    | put => exact hc p (providersOf_put _ _ _ ▸ hp) hpr
    | remove => exact hc p hp hpr
    | addProvider =>
      rcases mem_of_mem_addProvider hp with ho | ⟨rfl, hk⟩
      · exact hc p ho hpr
      · exact hallowed snapshot hs (Prod.ext hk hpr.symm)
    | removeProvider => exact hc p ((mem_removeProvider hsystem.consistent).1 hp).1 hpr

variable {job : PutRecordJob Peer}

theorem mem_start (hs : store.Consistent) {input : PollInput (Record Peer)}
    (hsn : snapshot ∈ (job.start store input).inner.pending) : ∃ record, store.get snapshot.key = some record ∧
      (snapshot = record ∨ snapshot.publisher = some job.localId ∧ record.expires = none ∧
        snapshot.expires = job.recordTtl.map (input.now + ·)) := by
  simp only [PutRecordJob.start, pending] at hsn
  obtain ⟨record, hr, hse⟩ := mem_filterMap.1 hsn
  obtain ⟨⟨key, record⟩, he, rfl⟩ := mem_map.1 ((input.order.perm _).subset hr)
  have hg : store.get key = some record := get?_eq_some_iff.2 he
  obtain ⟨rfl, -⟩ := hs.records_ok key record hg
  unfold PutRecordJob.select at hse
  simp only at hse
  split_ifs at hse with hsk hp
  · cases hse
    refine ⟨record, hg, ?_⟩
    cases hex : record.expires with
    | none =>
      simp only [Bool.and_eq_true, decide_eq_true_eq] at hp
      exact .inr ⟨hp.2, rfl, by simp⟩
    | some => exact .inl (by rw [some_or, ← hex])
  · cases hse
    exact ⟨_, hg, .inl rfl⟩

section

variable (hsystem : Covered system) {input : PollInput (Record Peer)} (hallowed : PollAllowed system input.now)
include hsystem hallowed

/-- What a run of the put job has in hand covers the store, and whatever has expired of it has expired in the
store. -/
theorem Covered.due_records (hj : job = system.putRecordJob ∨ job = system.putRecordJob.start system.store input) :
    ∀ snapshot ∈ job.inner.pending, RecordCovered system.putRecordJob.localId system.store snapshot ∧
      (snapshot.isExpired input.now → ∀ record, system.store.get snapshot.key = some record →
        record.isExpired input.now) := by
  obtain ⟨ht, hp⟩ := hallowed
  intro snapshot hs
  rcases hj with rfl | rfl
  · have hc := hsystem.records snapshot hs
    refine ⟨hc, fun he record hg => ?_⟩
    rcases hc record hg with hle | ⟨hpu, hn⟩
    · exact hle.expired he
    · have ha := hp snapshot hs hpu (by rw [hg]; simp [hn])
      rw [ha] at he
      cases he
  · obtain ⟨_, hst, hca⟩ := mem_start hsystem.consistent hs
    constructor
    · intro record hg
      cases hst.symm.trans hg
      rcases hca with rfl | ⟨hpu, hn, -⟩
      · exact .inl (.refl _)
      · exact .inr ⟨hpu, hn⟩
    · intro he record hg
      cases hst.symm.trans hg
      rcases hca with rfl | ⟨-, -, hex⟩
      · exact he
      rw [Record.isExpired, hex, Option.any_map] at he
      cases hv : system.putRecordJob.recordTtl with
      | none =>
        rw [hv] at he
        cases he
      | some ttl =>
        rw [hv, any_some] at he
        have hz : ttl ≠ 0 := fun hz => ht (hz ▸ hv)
        simp at he
        omega

theorem Covered.pollPut : Covered (system.step (.pollPut input)).2 ∧
      OnlyExpiredRemoved input.now system.store (system.step (.pollPut input)).2.store := by
  obtain ⟨job, hj, hc, hloI⟩ : ∃ job, (if system.putRecordJob.inner.checkReady input.now input.elapsed then
      system.putRecordJob.start system.store input else system.putRecordJob) = job ∧
      (job = system.putRecordJob ∨ job = system.putRecordJob.start system.store input) ∧
      job.localId = system.putRecordJob.localId := by
    refine ⟨_, rfl, ?_⟩
    split_ifs
    · exact ⟨.inr rfl, rfl⟩
    · exact ⟨.inl rfl, rfl⟩
  have hs : RecordsPolled job.localId input.now system.store job.inner.pending system.store :=
    ⟨hsystem.consistent, .refl _ _, fun _ => rfl, hloI ▸ hsystem.due_records hallowed hc⟩
  have hpo := advance_invariant (RecordsPolled job.localId input.now system.store)
    (fun _ _ _ => RecordsPolled.remove) (fun _ _ _ => RecordsPolled.fewer) hs input
  simp only [step, PutRecordJob.poll, hj]
  refine ⟨⟨hpo.consistent, fun snapshot hsn => (hpo.due snapshot hsn).1, ?_⟩, hpo.removed⟩
  intro snapshot hsn p hp
  exact hsystem.providers snapshot hsn p (hpo.providers _ ▸ hp)

end

/-! ### Polls of the provider job -/

theorem ProvidersPolled.remove {snapshot : ProviderRecord Peer Addr} {snapshots : List (ProviderRecord Peer Addr)}
    (hpo : ProvidersPolled now store (snapshot :: snapshots) store') (he : snapshot.isExpired now) :
    ProvidersPolled now store snapshots (store'.removeProvider snapshot.key snapshot.provider) where
  consistent := hpo.consistent.removeProvider _ _
  removed := by
    refine ⟨fun key record hg => ?_, fun key p hp => ?_⟩
    · rw [get_removeProvider]
      exact hpo.removed.records key record hg
    rcases hpo.removed.providers key p hp with hp | hgo
    · by_cases hs : key = snapshot.key ∧ p.provider = snapshot.provider
      · obtain ⟨rfl, hpr⟩ := hs
        exact .inr ((hpo.covered snapshot mem_cons_self p hp hpr).expired he)
      · exact .inl ((mem_removeProvider hpo.consistent).2 ⟨hp, hs⟩)
    · exact .inr hgo
  records key := by
    rw [get_removeProvider]
    exact hpo.records key
  covered := by
    intro other ho p hp
    exact hpo.covered other (mem_cons_of_mem _ ho) p ((mem_removeProvider hpo.consistent).1 hp).1

theorem Covered.pollAdd (hsystem : Covered system) (input : PollInput (ProviderRecord Peer Addr)) :
    Covered (system.step (.pollAdd input)).2 ∧
      OnlyExpiredRemoved input.now system.store (system.step (.pollAdd input)).2.store := by
  obtain ⟨job, hj, hd⟩ : ∃ job, (if system.addProviderJob.inner.checkReady input.now input.elapsed then
      system.addProviderJob.start system.store input else system.addProviderJob) = job ∧
      ∀ snapshot ∈ job.inner.pending, ProviderCovered system.store snapshot := by
    refine ⟨_, rfl, ?_⟩
    split_ifs
    · intro snapshot hs
      exact providerCovered_of_mem hsystem.consistent ((input.order.perm _).subset hs)
    · exact hsystem.providers
  have hst : ProvidersPolled input.now system.store job.inner.pending system.store :=
    ⟨hsystem.consistent, .refl _ _, fun _ => rfl, hd⟩
  have hp := advance_invariant (ProvidersPolled input.now system.store)
    (fun _ _ _ => ProvidersPolled.remove) (fun _ _ _ => ProvidersPolled.fewer) hst input
  simp only [step, AddProviderJob.poll, hj]
  refine ⟨⟨hp.consistent, ?_, hp.covered⟩, hp.removed⟩
  intro snapshot hs record hg
  exact hsystem.records snapshot hs record ((hp.records _).symm.trans hg)

theorem Covered.step (hsystem : Covered system) {input : RepublishingInput Peer Addr}
    (hallowed : Allowed system input) : Covered (system.step input).2 := by
  cases input with
  | call call => exact hsystem.call hallowed
  | skip => exact { hsystem with }
  | pollPut => exact (hsystem.pollPut hallowed).1
  | pollAdd input => exact (hsystem.pollAdd input).1

/-- In every run in which no record outlives the one of its key that is still in a snapshot, and no poll comes
after the expiry that the put job made up for a record of the local peer, the jobs only remove from the store what
has expired there. -/
theorem run_removes_only_expired (localId : Peer) (config : MemoryStoreConfig) (replicateInterval : Nat)
    (publishInterval recordTtl : Option Nat) (providerInterval now : Nat) (inputs : List (RepublishingInput Peer Addr))
    (hallowed : AlongTotal step Allowed
      (.new localId config replicateInterval publishInterval recordTtl providerInterval now) inputs)
    {before after : List (RepublishingInput Peer Addr)} {poll : RepublishingInput Peer Addr}
    (hinputs : inputs = before ++ poll :: after) {time : Nat} (htime : poll.pollTime = some time)
    {system : Republishing Peer Addr} (hsystem : system = (runTotal step
      (.new localId config replicateInterval publishInterval recordTtl providerInterval now) before).2) :
    OnlyExpiredRemoved time system.store (system.step poll).2.store := by
  have hb : AlongTotal step Allowed
      (.new localId config replicateInterval publishInterval recordTtl providerInterval now) (before ++ [poll]) := by
    rw [hinputs, ← singleton_append, ← append_assoc] at hallowed
    exact alongTotal_append_left hallowed
  have hl : Allowed system poll := hsystem ▸ alongTotal_last hb
  have hc : Covered system := by
    rw [hsystem]
    have hs : ∀ (past : List (RepublishingOutput Peer Addr)) (system : Republishing Peer Addr) input,
        Covered system → Allowed system input → Covered (system.step input).2 :=
      fun _ _ _ hsystem => hsystem.step
    exact runTotal_along hs before [] ⟨consistent_withConfig localId config, nofun, nofun⟩ (alongTotal_append_left hb)
  cases poll with
  | call | skip => cases htime
  | pollPut =>
    cases htime
    exact (hc.pollPut hl).2
  | pollAdd input =>
    cases htime
    exact (hc.pollAdd input).2

/-! ### Runs of a small store -/

/-- A store of peer 0 with a put job due at time 10. -/
def smallRepublishing : Republishing Nat Nat := .new 0 ⟨4, 16, 2, 4⟩ 10 none none 10 0

def smallRecord (key : UInt8) (expires : Option Nat) : Record Nat := ⟨⟨[key]⟩, [1], some 1, expires⟩

def putPoll (now : Nat) : RepublishingInput Nat Nat := .pollPut ⟨now, false, false, .asListed⟩

/-- The put job starts a run, which leaves the second of two records in the snapshot; then that record is
put again with another expiry. -/
def putAgain (expires : Nat) : List (RepublishingInput Nat Nat) :=
  [.call (.put (smallRecord 1 none)), .call (.put (smallRecord 2 (some 20))), putPoll 10,
    .call (.put (smallRecord 2 (some expires)))]

theorem run_removes_only_expired_sooner :
    ∃ system : Republishing Nat Nat, system.store.get ⟨[2]⟩ = some (smallRecord 2 (some 15)) ∧
      (system.step (putPoll 30)).2.store.get ⟨[2]⟩ = none ∧
      OnlyExpiredRemoved 30 system.store (system.step (putPoll 30)).2.store :=
  ⟨_, by decide +kernel, by decide +kernel,
    run_removes_only_expired 0 ⟨4, 16, 2, 4⟩ 10 none none 10 0 (putAgain 15 ++ [putPoll 30]) (by decide +kernel)
      rfl rfl rfl⟩

/-- The second record has been renewed and does not expire before time 100, but is removed at time 30. -/
theorem renewed_record_removed : let system := (runTotal step smallRepublishing (putAgain 100)).2
    system.store.get ⟨[2]⟩ = some (smallRecord 2 (some 100)) ∧ (smallRecord 2 (some 100)).isExpired 30 = false ∧
      (system.step (putPoll 30)).2.store.get ⟨[2]⟩ = none := by
  decide +kernel

/-- Two records of the local peer that never expire are published with a time to live of 7. The second
one is removed by a poll 7 units of time after the start of the run. -/
example : ((runTotal step (.new 0 ⟨4, 16, 2, 4⟩ 10 (some 5) (some 7) 10 0 : Republishing Nat Nat)
    [.call (.put ⟨⟨[1]⟩, [1], some 0, none⟩), .call (.put ⟨⟨[2]⟩, [1], some 0, none⟩), putPoll 10,
      putPoll 17]).2.store.get ⟨[2]⟩) = none := by
  decide +kernel

end RustLibp2p.Kad
