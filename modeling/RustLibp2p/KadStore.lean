import Mathlib.Data.List.Lex
import RustLibp2p.OrdMap
import RustLibp2p.Transition

/-! Records of the DHT: values stored under a key, and pointers to peers that provide a value. Instants are
numbers. -/

namespace RustLibp2p.Kad

structure RecordKey where
  bytes : List UInt8
  deriving DecidableEq

namespace RecordKey

def code (key : RecordKey) : List Nat := key.bytes.map UInt8.toNat

theorem code_inj {key key' : RecordKey} (heq : key.code = key'.code) : key = key' := by
  cases key
  cases key'
  rw [mk.injEq]
  exact List.map_injective_iff.2 (fun _ _ => UInt8.toNat_inj.1) heq

/-- Any order will do, since keys are only compared for equality. -/
instance : LinearOrder RecordKey := LinearOrder.lift' code fun _ _ => code_inj

end RecordKey

structure Record (Peer : Type) where
  key : RecordKey
  value : List UInt8
  publisher : Option Peer
  expires : Option Nat
  deriving DecidableEq

def Record.isExpired {Peer : Type} (record : Record Peer) (now : Nat) : Bool := record.expires.any (· ≤ now)

structure ProviderRecord (Peer Addr : Type) where
  key : RecordKey
  provider : Peer
  expires : Option Nat
  addresses : List Addr
  deriving DecidableEq

namespace ProviderRecord

variable {Peer Addr : Type}

def isExpired (record : ProviderRecord Peer Addr) (now : Nat) : Bool := record.expires.any (· ≤ now)

/-- What equality and hashing look at. -/
def identity (record : ProviderRecord Peer Addr) : RecordKey × Peer := (record.key, record.provider)

end ProviderRecord

/-! The record store in memory. Next to the providers of each key it keeps the provider records of the
local peer a second time. -/

open Transition List Option OrdMap ProviderRecord

structure MemoryStoreConfig where
  maxRecords : Nat
  maxValueBytes : Nat
  maxProvidersPerKey : Nat
  maxProvidedKeys : Nat

/-- Twenty is the replication factor. -/
def MemoryStoreConfig.default : MemoryStoreConfig where
  maxRecords := 1024
  maxValueBytes := 65 * 1024
  maxProvidersPerKey := 20
  maxProvidedKeys := 1024

inductive StoreError where
  | maxRecords
  | maxProvidedKeys
  | valueTooLarge
  deriving DecidableEq

structure MemoryStore (Peer Addr : Type) where
  localId : Peer
  config : MemoryStoreConfig
  records : OrdMap RecordKey (Record Peer)
  providers : OrdMap RecordKey (List (ProviderRecord Peer Addr))
  provided : KeySet (identity : ProviderRecord Peer Addr → RecordKey × Peer)

variable {Peer Addr : Type}

namespace MemoryStore

def withConfig (localId : Peer) (config : MemoryStoreConfig) : MemoryStore Peer Addr where
  localId := localId
  config := config
  records := .empty
  providers := .empty
  provided := .empty

def new (localId : Peer) : MemoryStore Peer Addr := withConfig localId .default

section

variable (store : MemoryStore Peer Addr) (key : RecordKey)

def get : Option (Record Peer) := store.records.get? key

def put (record : Record Peer) : Except StoreError Unit × MemoryStore Peer Addr :=
  if store.config.maxValueBytes ≤ record.value.length then (.error .valueTooLarge, store)
  else
    let inserted := { store with records := store.records.insert record.key record }
    match store.records.get? record.key with
    | some _ => (.ok (), inserted)
    | none =>
      if store.config.maxRecords ≤ store.records.entries.length then (.error .maxRecords, store)
      else (.ok (), inserted)

def remove : MemoryStore Peer Addr := { store with records := store.records.erase key }

def providersOf : List (ProviderRecord Peer Addr) := (store.providers.get? key).getD []

/-- The end of `remove_provider`: a key without providers is forgotten. -/
def setProviders (providers : List (ProviderRecord Peer Addr)) : MemoryStore Peer Addr :=
  if providers.isEmpty then { store with providers := store.providers.erase key }
  else { store with providers := store.providers.insert key providers }

end
end MemoryStore

section Calls

variable [DecidableEq Peer]

/-- The list with the record in the place of the one of the same provider, and the record that was there. -/
def replaceProvider (record : ProviderRecord Peer Addr) :
    List (ProviderRecord Peer Addr) → Option (ProviderRecord Peer Addr × List (ProviderRecord Peer Addr))
  | [] => none
  | p :: rest =>
    if p.provider = record.provider then some (p, record :: rest)
    else (replaceProvider record rest).map fun (old, rest) => (old, p :: rest)

namespace MemoryStore

section

variable (store : MemoryStore Peer Addr) (record : ProviderRecord Peer Addr)

/-- The part of `add_provider` that has the list of the key's providers. -/
def placeProvider (providers : List (ProviderRecord Peer Addr)) : MemoryStore Peer Addr :=
  match replaceProvider record providers with
  | some (old, providers) =>
    { store with
      providers := store.providers.insert record.key providers
      provided :=
        if store.localId = record.provider then (store.provided.remove old).insert record else store.provided }
  | none =>
    if providers.length = store.config.maxProvidersPerKey then
      { store with providers := store.providers.insert record.key providers }
    else
      { store with
        providers := store.providers.insert record.key (providers ++ [record])
        provided := if store.localId = record.provider then store.provided.insert record else store.provided }

def addProvider : Except StoreError Unit × MemoryStore Peer Addr :=
  match store.providers.get? record.key with
  | some providers => (.ok (), store.placeProvider record providers)
  | none =>
    if store.config.maxProvidedKeys = store.providers.entries.length then (.error .maxProvidedKeys, store)
    else (.ok (), store.placeProvider record [])

def removeProvider (key : RecordKey) (provider : Peer) : MemoryStore Peer Addr :=
  match store.providers.get? key with
  | none => store
  | some providers =>
    match providers.find? fun p => p.provider = provider with
    | none => store.setProviders key providers
    | some p =>
      let provided := if p.provider = store.localId then store.provided.remove p else store.provided
      { store with provided }.setProviders key (providers.eraseP fun p => p.provider = provider)

end
end MemoryStore
end Calls

inductive StoreCall (Peer Addr : Type) where
  | put (record : Record Peer)
  | remove (key : RecordKey)
  | addProvider (record : ProviderRecord Peer Addr)
  | removeProvider (key : RecordKey) (provider : Peer)

def MemoryStore.exec [DecidableEq Peer] (store : MemoryStore Peer Addr) :
    StoreCall Peer Addr → Except StoreError Unit × MemoryStore Peer Addr
  | .put record => store.put record
  | .remove key => (.ok (), store.remove key)
  | .addProvider record => store.addProvider record
  | .removeProvider key provider => (.ok (), store.removeProvider key provider)

/-- What a key's list of providers is like: it has one record for each peer, all of them of this key. -/
structure ProviderList (config : MemoryStoreConfig) (key : RecordKey) (providers : List (ProviderRecord Peer Addr)) :
    Prop where
  onePerPeer : (providers.map provider).Nodup
  length_le : providers.length ≤ config.maxProvidersPerKey
  keyed : ∀ p ∈ providers, p.key = key

section Replace

variable [DecidableEq Peer]

theorem provider_ne_of_replaceProvider {record : ProviderRecord Peer Addr}
    {providers : List (ProviderRecord Peer Addr)} (hn : replaceProvider record providers = none) :
    ∀ p ∈ providers, p.provider ≠ record.provider := by
  induction providers with
  | nil => nofun
  | cons q rest ih =>
    rw [replaceProvider] at hn
    split_ifs at hn with heq
    rw [map_eq_none_iff] at hn
    intro p hp
    rcases mem_cons.1 hp with rfl | hp
    · exact heq
    · exact ih hn p hp

section

variable {record old : ProviderRecord Peer Addr} {providers providers' : List (ProviderRecord Peer Addr)}

theorem exists_of_replaceProvider (hr : replaceProvider record providers = some (old, providers')) :
    ∃ pre after, providers = pre ++ old :: after ∧ providers' = pre ++ record :: after ∧
      old.provider = record.provider ∧ ∀ p ∈ pre, p.provider ≠ record.provider := by
  induction providers generalizing providers' with
  | nil => cases hr
  | cons q rest ih =>
    rw [replaceProvider] at hr
    split_ifs at hr with heq
    · cases hr
      exact ⟨[], rest, rfl, rfl, heq, nofun⟩
    obtain ⟨⟨_, _⟩, ho, hc⟩ := map_eq_some_iff.1 hr
    cases hc
    obtain ⟨pre, after, rfl, rfl, hp, hb⟩ := ih ho
    exact ⟨q :: pre, after, rfl, rfl, hp, forall_mem_cons.2 ⟨heq, hb⟩⟩

theorem replaceProvider_some (hn : (providers.map provider).Nodup)
    (hr : replaceProvider record providers = some (old, providers')) :
    old ∈ providers ∧ old.provider = record.provider ∧
      providers'.map provider = providers.map provider ∧
      ∀ p, p ∈ providers' ↔ p = record ∨ p ∈ providers ∧ p.provider ≠ record.provider := by
  obtain ⟨_, after, rfl, rfl, hpr, hb⟩ := exists_of_replaceProvider hr
  have ha : ∀ p ∈ after, p.provider ≠ record.provider := by
    intro p hp heq
    rw [map_append, map_cons, nodup_append] at hn
    apply (nodup_cons.1 hn.2.1).1
    rw [hpr, ← heq]
    exact mem_map_of_mem hp
  refine ⟨by simp, hpr, by simp [hpr], fun p => ?_⟩
  simp only [mem_append, mem_cons]
  constructor
  · rintro (hp | rfl | hp)
    · exact .inr ⟨.inl hp, hb p hp⟩
    · exact .inl rfl
    · exact .inr ⟨.inr (.inr hp), ha p hp⟩
  · rintro (rfl | ⟨hp | rfl | hp, hne⟩)
    · exact .inr (.inl rfl)
    · exact .inl hp
    · exact absurd hpr hne
    · exact .inr (.inr hp)

end
end Replace

namespace MemoryStore

/-- The provider records of the local peer are kept twice, the same ones, and nothing is kept beyond its limit. -/
structure Consistent (store : MemoryStore Peer Addr) : Prop where
  provided_iff : ∀ p, p ∈ store.provided ↔ p.provider = store.localId ∧ p ∈ store.providersOf p.key
  listed : ∀ key, ProviderList store.config key (store.providersOf key)
  keys_le : store.providers.entries.length ≤ store.config.maxProvidedKeys
  records_le : store.records.entries.length ≤ store.config.maxRecords
  records_ok : ∀ key record, store.records.get? key = some record →
    record.key = key ∧ record.value.length < store.config.maxValueBytes

variable {store store' : MemoryStore Peer Addr}

theorem consistent_withConfig (localId : Peer) (config : MemoryStoreConfig) :
    (withConfig localId config : MemoryStore Peer Addr).Consistent where
  provided_iff p := by
    constructor
    · intro hp
      exact absurd hp (KeySet.not_mem_empty p)
    · rintro ⟨-, hp⟩
      exact absurd hp not_mem_nil
  listed key := ⟨nodup_nil, Nat.zero_le _, nofun⟩
  keys_le := Nat.zero_le _
  records_le := Nat.zero_le _
  records_ok := nofun

theorem put_eq (store : MemoryStore Peer Addr) (record : Record Peer) : (∃ e, store.put record = (.error e, store)) ∨
    store.put record = (.ok (), { store with records := store.records.insert record.key record }) := by
  unfold put
  split_ifs
  · exact .inl ⟨_, rfl⟩
  · split
    · exact .inr rfl
    · exact .inl ⟨_, rfl⟩
  · split <;> exact .inr rfl

theorem Consistent.of_records (hstore : store.Consistent) {records : OrdMap RecordKey (Record Peer)}
    (hlen : records.entries.length ≤ store.config.maxRecords)
    (hr : ∀ key record, records.get? key = some record →
      record.key = key ∧ record.value.length < store.config.maxValueBytes) :
    ({ store with records } : MemoryStore Peer Addr).Consistent :=
  { hstore with records_le := hlen, records_ok := hr }

theorem Consistent.put (hstore : store.Consistent) (record : Record Peer) : (store.put record).2.Consistent := by
  rw [MemoryStore.put]
  by_cases hl : store.config.maxValueBytes ≤ record.value.length
  · rw [if_pos hl]
    exact hstore
  rw [if_neg hl]
  have hi : ∀ key other, (store.records.insert record.key record).get? key = some other →
      other.key = key ∧ other.value.length < store.config.maxValueBytes :=
    forall_insert ⟨rfl, Nat.lt_of_not_le hl⟩ hstore.records_ok
  cases hg : store.records.get? record.key with
  | some =>
    apply hstore.of_records _ hi
    rw [length_insert_of_get? hg]
    exact hstore.records_le
  | none =>
    split_ifs with hf
    · exact hstore
    · apply hstore.of_records _ hi
      exact (length_insert_le _ _ _).trans (Nat.lt_of_not_le hf)

theorem Consistent.remove (hstore : store.Consistent) (key : RecordKey) : (store.remove key).Consistent := by
  apply hstore.of_records
  · exact (length_erase_le _ _).trans hstore.records_le
  · intro key' record hr
    exact hstore.records_ok key' record (get?_erase_iff.1 hr).2

variable {key : RecordKey} {p record : ProviderRecord Peer Addr} {providers : List (ProviderRecord Peer Addr)}
  {provided : KeySet (identity : ProviderRecord Peer Addr → RecordKey × Peer)}

theorem Consistent.of_providers (hstore : store.Consistent) (new : Option (List (ProviderRecord Peer Addr)))
    {providers : OrdMap RecordKey (List (ProviderRecord Peer Addr))}
    (hg : ∀ key', providers.get? key' = if key' = key then new else store.providers.get? key')
    (hl : ProviderList store.config key (new.getD []))
    (hk : providers.entries.length ≤ store.config.maxProvidedKeys)
    (hs : ∀ p, p.key = key → (p ∈ provided ↔ p.provider = store.localId ∧ p ∈ new.getD []))
    (ho : ∀ p, p.key ≠ key → (p ∈ provided ↔ p ∈ store.provided)) :
    ({ store with providers, provided } : MemoryStore Peer Addr).Consistent where
  __ := hstore
  provided_iff p := by
    show p ∈ provided ↔ p.provider = store.localId ∧ p ∈ (providers.get? p.key).getD []
    rw [hg]
    split_ifs with heq
    · exact hs p heq
    · exact (ho p heq).trans (hstore.provided_iff p)
  listed key' := by
    show ProviderList store.config key' ((providers.get? key').getD [])
    rw [hg]
    split_ifs with heq
    · exact heq ▸ hl
    · exact hstore.listed key'
  keys_le := hk

theorem Consistent.mem_provided (hstore : store.Consistent)
    (hp : p.key = key) : p ∈ store.provided ↔ p.provider = store.localId ∧ p ∈ store.providersOf key := by
  rw [← hp]
  exact hstore.provided_iff p

theorem Consistent.setProviders (hstore : store.Consistent) {old : List (ProviderRecord Peer Addr)}
    (hg : store.providers.get? key = some old) (hl : ProviderList store.config key providers)
    (hs : ∀ p, p.key = key → (p ∈ provided ↔ p.provider = store.localId ∧ p ∈ providers))
    (ho : ∀ p, p.key ≠ key → (p ∈ provided ↔ p ∈ store.provided)) :
    (({ store with provided } : MemoryStore Peer Addr).setProviders key providers).Consistent := by
  unfold MemoryStore.setProviders
  split_ifs with he
  · obtain rfl : providers = [] := isEmpty_iff.1 he
    refine hstore.of_providers none (fun _ => get?_erase ..) hl ?_ hs ho
    exact (length_erase_le _ _).trans hstore.keys_le
  · refine hstore.of_providers (some providers) (fun _ => get?_insert ..) hl ?_ hs ho
    rw [length_insert_of_get? hg]
    exact hstore.keys_le

def NoEmptyList (store : MemoryStore Peer Addr) : Prop := ∀ key, store.providers.get? key ≠ some []

theorem noEmptyList_insert {providers : OrdMap RecordKey (List (ProviderRecord Peer Addr))}
    {new : List (ProviderRecord Peer Addr)} (hp : ∀ key, providers.get? key ≠ some []) (hn : new ≠ [])
    (key' : RecordKey) : (providers.insert key new).get? key' ≠ some [] := by
  rw [get?_insert]
  split_ifs
  · exact fun he => hn (some_inj.1 he)
  · exact hp key'

theorem noEmptyList_setProviders (hstore : store.NoEmptyList) (key : RecordKey)
    (providers : List (ProviderRecord Peer Addr)) : (store.setProviders key providers).NoEmptyList := by
  unfold setProviders
  split_ifs with he
  · intro key'
    rw [get?_erase]
    split_ifs
    · nofun
    · exact hstore key'
  · exact noEmptyList_insert hstore fun hnil => he (isEmpty_iff.2 hnil)

/-- Neither the peer nor the limits of the store change. -/
def SameOwner (store store' : MemoryStore Peer Addr) : Prop :=
  store'.localId = store.localId ∧ store'.config = store.config

variable [DecidableEq Peer] {old : ProviderRecord Peer Addr}

section

variable (hstore : store.Consistent)
include hstore

theorem Consistent.placed (hl : ProviderList store.config record.key providers)
    (hk : (store.providers.insert record.key providers).entries.length ≤ store.config.maxProvidedKeys)
    (hmem : ∀ p, p ∈ providers ↔ p = record ∨ p ∈ store.providersOf record.key ∧ p.provider ≠ record.provider)
    (hpl : ∀ p, p ∈ provided ↔ p = record ∨ p ∈ store.provided ∧ p.identity ≠ record.identity) :
    ({ store with
      providers := store.providers.insert record.key providers
      provided := if store.localId = record.provider then provided
        else store.provided } : MemoryStore Peer Addr).Consistent := by
  refine hstore.of_providers (some providers) (fun _ => get?_insert ..) hl hk (fun p hp => ?_) fun p hp => ?_
  · rw [getD_some, hmem]
    split_ifs with hlo
    · rw [hpl, hstore.mem_provided hp]
      constructor
      · rintro (rfl | ⟨⟨hlo', -⟩, hne⟩)
        · exact ⟨hlo.symm, .inl rfl⟩
        · exact absurd (Prod.ext hp (hlo'.trans hlo)) hne
      · rintro ⟨hlo', rfl | ⟨-, hne⟩⟩
        · exact .inl rfl
        · exact absurd (hlo'.trans hlo) hne
    · rw [hstore.mem_provided hp]
      refine and_congr_right fun hlo' => ?_
      have hne : p.provider ≠ record.provider := hlo' ▸ hlo
      constructor
      · intro hmem
        exact .inr ⟨hmem, hne⟩
      · rintro (rfl | ⟨hmem, -⟩)
        · exact absurd rfl hne
        · exact hmem
  · split_ifs
    · rw [hpl]
      constructor
      · rintro (rfl | ⟨hmem, -⟩)
        · exact absurd rfl hp
        · exact hmem
      · exact fun hmem => .inr ⟨hmem, fun heq => hp (congrArg Prod.fst heq)⟩
    · rfl

theorem Consistent.placeProvider (hk : ∀ providers, (store.providers.insert record.key providers).entries.length ≤
    store.config.maxProvidedKeys) : (store.placeProvider record (store.providersOf record.key)).Consistent := by
  obtain ⟨honP, hlen, hke⟩ := hstore.listed record.key
  unfold MemoryStore.placeProvider
  cases hr : replaceProvider record (store.providersOf record.key) with
  | some replaced =>
    obtain ⟨ho, hpr, hmap, hi⟩ := replaceProvider_some honP hr
    have hid : replaced.1.identity = record.identity := by rw [identity, identity, hke _ ho, hpr]
    have hl : replaced.2.length = (store.providersOf record.key).length := by
      rw [← length_map provider, hmap, length_map]
    refine hstore.placed ⟨hmap ▸ honP, hl ▸ hlen, fun p hp => ?_⟩ (hk _) hi fun p => KeySet.mem_insert_remove hid
    rcases (hi p).1 hp with rfl | ⟨hp, -⟩
    · rfl
    · exact hke p hp
  | none =>
    have hn := provider_ne_of_replaceProvider hr
    -- The local peer has no record of this key yet, since it has none in the list.
    have hot : ∀ q ∈ store.provided, q.identity ≠ record.identity := by
      intro q hq hid
      have hky : q.key = record.key := congrArg Prod.fst hid
      exact hn q ((hstore.mem_provided hky).1 hq).2 (congrArg Prod.snd hid)
    by_cases hf : (store.providersOf record.key).length = store.config.maxProvidersPerKey
    · rw [if_pos hf]
      exact hstore.of_providers (some (store.providersOf record.key)) (fun _ => get?_insert ..)
        (hstore.listed _) (hk _) (fun _ => hstore.mem_provided) fun _ _ => Iff.rfl
    rw [if_neg hf]
    refine hstore.placed ⟨?_, ?_, ?_⟩ (hk _) (fun p => ?_) fun p =>
      (KeySet.mem_insert_of_new hot).trans (or_congr_right (and_iff_left_of_imp (hot p)).symm)
    · rw [map_append, map_singleton]
      refine List.Nodup.append honP (nodup_singleton _) ?_
      intro provider hmem hre
      obtain ⟨p, hp, rfl⟩ := mem_map.1 hmem
      exact hn p hp (mem_singleton.1 hre)
    · rw [length_append]
      exact lt_of_le_of_ne hlen hf
    · intro p hp
      rcases mem_append.1 hp with hp | hp
      · exact hke p hp
      · rw [mem_singleton.1 hp]
    · rw [mem_append, mem_singleton, or_comm]
      exact or_congr_right (and_iff_left_of_imp (hn p)).symm

theorem Consistent.addProvider (record : ProviderRecord Peer Addr) : (store.addProvider record).2.Consistent := by
  unfold MemoryStore.addProvider
  cases hg : store.providers.get? record.key with
  | some providers =>
    have hp : store.providersOf record.key = providers := by rw [providersOf, hg, getD_some]
    rw [← hp]
    apply hstore.placeProvider
    intro other
    rw [length_insert_of_get? hg]
    exact hstore.keys_le
  | none =>
    have hp : store.providersOf record.key = [] := by rw [providersOf, hg, getD_none]
    split_ifs with hf
    · exact hstore
    rw [← hp]
    apply hstore.placeProvider
    intro other
    have hlen := length_insert_le store.providers record.key other
    have hle := hstore.keys_le
    omega

end

theorem mem_eraseP_provider (hn : (providers.map provider).Nodup) (provider : Peer) :
    p ∈ providers.eraseP (fun p => p.provider = provider) ↔ p ∈ providers ∧ p.provider ≠ provider := by
  induction providers with
  | nil => simp
  | cons q rest ih =>
    obtain ⟨hq, hr⟩ := nodup_cons.1 hn
    by_cases heq : q.provider = provider
    · have ho : ∀ p ∈ rest, p.provider ≠ provider := by
        rintro p hp rfl
        exact hq (heq ▸ mem_map_of_mem hp)
      rw [eraseP_cons_of_pos (by simpa using heq), mem_cons]
      constructor
      · exact fun hp => ⟨.inr hp, ho p hp⟩
      · rintro ⟨rfl | hp, hne⟩
        · exact absurd heq hne
        · exact hp
    · rw [eraseP_cons_of_neg (by simpa using heq), mem_cons, mem_cons, ih hr]
      constructor
      · rintro (rfl | ⟨hp, hne⟩)
        · exact ⟨.inl rfl, heq⟩
        · exact ⟨.inr hp, hne⟩
      · rintro ⟨rfl | hp, hne⟩
        · exact .inl rfl
        · exact .inr ⟨hp, hne⟩

theorem Consistent.removeProvider (hstore : store.Consistent) (key : RecordKey) (provider : Peer) :
    (store.removeProvider key provider).Consistent := by
  unfold MemoryStore.removeProvider
  cases hg : store.providers.get? key with
  | none => exact hstore
  | some providers =>
    have hpr : store.providersOf key = providers := by rw [providersOf, hg, getD_some]
    have hl : ProviderList store.config key providers := hpr ▸ hstore.listed key
    have hpv : ∀ p, p.key = key → (p ∈ store.provided ↔ p.provider = store.localId ∧ p ∈ providers) :=
      fun p hp => hpr ▸ hstore.mem_provided hp
    simp only
    cases hf : providers.find? fun p => p.provider = provider with
    | none => exact hstore.setProviders hg hl hpv fun _ _ => Iff.rfl
    | some found =>
      obtain rfl : found.provider = provider := by simpa using find?_some hf
      have hk : found.key = key := hl.keyed found (mem_of_find?_eq_some hf)
      have hsub : (providers.eraseP fun p => p.provider = found.provider).Sublist providers := eraseP_sublist
      refine hstore.setProviders hg ⟨?_, ?_, ?_⟩ ?_ ?_
      · exact hl.onePerPeer.sublist (hsub.map _)
      · exact hsub.length_le.trans hl.length_le
      · exact fun p hp => hl.keyed p (hsub.subset hp)
      · intro p hp
        rw [mem_eraseP_provider hl.onePerPeer]
        have hi : p.identity ≠ found.identity ↔ p.provider ≠ found.provider := by
          rw [identity, identity, hp, hk, Ne, Prod.mk.injEq]
          simp
        split_ifs with hlo
        · rw [KeySet.mem_remove, hpv p hp, hi, and_assoc]
        · rw [hpv p hp]
          refine and_congr_right fun hlo' => (and_iff_left ?_).symm
          exact fun heq => hlo (heq.symm.trans hlo')
      · intro p hp
        split_ifs
        · rw [KeySet.mem_remove]
          refine and_iff_left ?_
          exact fun heq => hp ((congrArg Prod.fst heq).trans hk)
        · rfl

section

variable (store : MemoryStore Peer Addr) (record : ProviderRecord Peer Addr)

/-- The list that the key gets has the record or is the old one. -/
theorem placeProvider_eq (providers : List (ProviderRecord Peer Addr)) : ∃ new provided,
    store.placeProvider record providers = { store with providers := store.providers.insert record.key new, provided } ∧
    (∀ p ∈ new, p ∈ providers ∨ p = record) ∧ (1 ≤ store.config.maxProvidersPerKey → new ≠ []) := by
  unfold placeProvider
  split
  next hr =>
    obtain ⟨_, _, rfl, rfl, -⟩ := exists_of_replaceProvider hr
    refine ⟨_, _, rfl, fun p hp => ?_, by simp⟩
    simp only [mem_append, mem_cons] at hp ⊢
    tauto
  next =>
    by_cases hf : providers.length = store.config.maxProvidersPerKey
    · rw [if_pos hf]
      refine ⟨providers, _, rfl, fun _ => .inl, ?_⟩
      rintro _ rfl
      rw [length_nil] at hf
      omega
    · rw [if_neg hf]
      exact ⟨_, _, rfl, by simp, by simp⟩

theorem addProvider_eq : (∃ e, store.addProvider record = (.error e, store)) ∨
    store.addProvider record = (.ok (), store.placeProvider record (store.providersOf record.key)) := by
  unfold addProvider providersOf
  cases store.providers.get? record.key with
  | some => exact .inr rfl
  | none =>
    dsimp only
    split_ifs
    · exact .inl ⟨_, rfl⟩
    · exact .inr rfl

theorem removeProvider_eq (key : RecordKey) (prov : Peer) : store.removeProvider key prov = store ∨
    ∃ provided providers, store.removeProvider key prov =
      ({ store with provided } : MemoryStore Peer Addr).setProviders key providers := by
  unfold removeProvider
  split
  · exact .inl rfl
  · split
    · exact .inr ⟨store.provided, _, rfl⟩
    · exact .inr ⟨_, _, rfl⟩

end

theorem exec_eq (store : MemoryStore Peer Addr) (call : StoreCall Peer Addr) :
    (∃ e, store.exec call = (.error e, store)) ∨ ∃ records providers provided,
      store.exec call = (.ok (), { store with records, providers, provided }) := by
  cases call with
  | put record => exact (store.put_eq record).imp_right fun hp => ⟨_, _, _, hp⟩
  | remove => exact .inr ⟨_, _, _, rfl⟩
  | addProvider record =>
    obtain ⟨_, provided, hpl, -⟩ := store.placeProvider_eq record (store.providersOf record.key)
    exact (store.addProvider_eq record).imp_right fun ha => ⟨_, _, provided, ha.trans (congrArg _ hpl)⟩
  | removeProvider key prov =>
    right
    rw [exec]
    rcases store.removeProvider_eq key prov with hs | ⟨provided, _, hse⟩
    · rw [hs]
      exact ⟨_, _, _, rfl⟩
    · rw [hse, setProviders]
      split_ifs <;> exact ⟨_, _, _, rfl⟩

theorem Consistent.exec (hstore : store.Consistent) (call : StoreCall Peer Addr) : (store.exec call).2.Consistent := by
  cases call with
  | put record => exact hstore.put record
  | remove key => exact hstore.remove key
  | addProvider record => exact hstore.addProvider record
  | removeProvider key prov => exact hstore.removeProvider key prov

section

variable (hstore : store.NoEmptyList) (hperKey : 1 ≤ store.config.maxProvidersPerKey)
include hstore hperKey

theorem noEmptyList_exec (call : StoreCall Peer Addr) : (store.exec call).2.NoEmptyList := by
  cases call with
  | put record => rcases store.put_eq record with ⟨e, hp⟩ | hp <;> rw [exec, hp] <;> exact hstore
  | remove => exact hstore
  | addProvider record =>
    rcases store.addProvider_eq record with ⟨e, ha⟩ | ha
    · rw [exec, ha]
      exact hstore
    · obtain ⟨_, provided, hpl, -, hn⟩ := store.placeProvider_eq record (store.providersOf record.key)
      rw [exec, ha, hpl]
      exact noEmptyList_insert hstore (hn hperKey)
  | removeProvider key prov =>
    rw [exec]
    rcases store.removeProvider_eq key prov with hs | ⟨provided, _, hse⟩
    · rwa [hs]
    · rw [hse]
      apply noEmptyList_setProviders
      exact hstore

end

/-- After every sequence of calls the set of provided records consists of the local peer's records in the lists
of providers, no list is empty or has two records of one peer, no limit is exceeded, and a call that fails
changes nothing. -/
theorem run_in_step (localId : Peer) (config : MemoryStoreConfig) (hperKey : 1 ≤ config.maxProvidersPerKey)
    (calls : List (StoreCall Peer Addr)) {answers : List (Except StoreError Unit)} {store : MemoryStore Peer Addr}
    (hrun : runTotal exec (withConfig localId config) calls = (answers, store)) : (∀ p, p ∈ store.provided ↔
      p.provider = localId ∧ ∃ key providers, store.providers.get? key = some providers ∧ p ∈ providers) ∧
    (∀ key providers, store.providers.get? key = some providers →
      providers ≠ [] ∧ (providers.map provider).Nodup ∧ providers.length ≤ config.maxProvidersPerKey) ∧
    store.providers.entries.length ≤ config.maxProvidedKeys ∧
    store.records.entries.length ≤ config.maxRecords ∧
    (∀ key record, store.records.get? key = some record → record.value.length < config.maxValueBytes) ∧
    ∀ call e store', store.exec call = (.error e, store') → store' = store := by
  have hs : ∀ (past : List (Except StoreError Unit)) (store : MemoryStore Peer Addr) call,
      store.Consistent ∧ store.NoEmptyList ∧ SameOwner (withConfig localId config) store →
      (store.exec call).2.Consistent ∧ (store.exec call).2.NoEmptyList ∧
        SameOwner (withConfig localId config) (store.exec call).2 := by
    rintro - store call ⟨hstore, hn, hl, hc⟩
    have hr : 1 ≤ store.config.maxProvidersPerKey := by rwa [hc]
    refine ⟨hstore.exec call, noEmptyList_exec hn hr call, ?_⟩
    rcases store.exec_eq call with ⟨e, he⟩ | ⟨_, _, _, he⟩ <;> rw [he] <;> exact ⟨hl, hc⟩
  have hla := runTotal_history hs calls [] ⟨consistent_withConfig localId config, nofun, rfl, rfl⟩
  rw [hrun] at hla
  obtain ⟨hstore, hn, rfl, rfl⟩ := hla
  have hpr : ∀ {key providers}, store.providers.get? key = some providers →
      store.providersOf key = providers := by
    intro key providers hg
    rw [providersOf, hg, getD_some]
  refine ⟨fun p => ?_, fun key providers hg => ?_, hstore.keys_le, hstore.records_le, ?_, ?_⟩
  · rw [hstore.provided_iff]
    refine and_congr_right fun _ => ⟨fun hp => ?_, ?_⟩
    · cases hg : store.providers.get? p.key with
      | none =>
        rw [providersOf, hg] at hp
        exact absurd hp not_mem_nil
      | some providers => exact ⟨p.key, providers, hg, hpr hg ▸ hp⟩
    · rintro ⟨key, providers, hg, hp⟩
      rw [← hpr hg] at hp
      rwa [(hstore.listed key).keyed p hp]
  · have hli := hstore.listed key
    rw [hpr hg] at hli
    refine ⟨?_, hli.onePerPeer, hli.length_le⟩
    rintro rfl
    exact hn key hg
  · exact fun key record hg => (hstore.records_ok key record hg).2
  · intro call e _ he
    rcases store.exec_eq call with ⟨e', heq⟩ | ⟨_, _, _, heq⟩ <;> cases heq.symm.trans he
    rfl

end MemoryStore

def sampleKey : RecordKey := ⟨[7]⟩

/-- The local peer 0 provides a key and then does so again with another address and expiry. -/
def providedTwice : List (StoreCall Nat Nat) :=
  [.addProvider ⟨sampleKey, 0, none, [1]⟩, .addProvider ⟨sampleKey, 0, some 9, [2]⟩]

theorem MemoryStore.run_in_step_providedTwice :
    ∃ answers store, runTotal exec (withConfig 0 ⟨4, 16, 1, 4⟩) providedTwice = (answers, store) ∧
      store.provided.elems = [⟨sampleKey, 0, some 9, [2]⟩] ∧
      ∀ p, p ∈ store.provided ↔
        p.provider = 0 ∧ ∃ key providers, store.providers.get? key = some providers ∧ p ∈ providers := by
  refine ⟨_, _, rfl, by decide +kernel, ?_⟩
  exact (run_in_step 0 ⟨4, 16, 1, 4⟩ (by decide) providedTwice rfl).1

end RustLibp2p.Kad
