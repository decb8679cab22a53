import Mathlib.Order.Lattice
import Mathlib.Data.List.Nodup

/-! Maps with ordered keys, as the list of their entries in the order of the keys. -/

namespace RustLibp2p
open List

structure OrdMap (κ α : Type) [LinearOrder κ] where
  entries : List (κ × α)
  sorted : entries.Pairwise fun x y => x.1 < y.1

namespace OrdMap

variable {κ α : Type} [LinearOrder κ] {m : OrdMap κ α} {x : κ × α} {k : κ} {a : α} {entries : List (κ × α)}

variable {n : OrdMap κ α} {k' : κ}

@[ext]
theorem ext (he : m.entries = n.entries) : m = n := by
  cases m
  cases n
  cases he
  rfl

def empty : OrdMap κ α := ⟨[], .nil⟩

theorem nodup_keys (m : OrdMap κ α) : (m.entries.map Prod.fst).Nodup := pairwise_map.2 (m.sorted.imp ne_of_lt)

theorem eq_of_key_eq {y : κ × α} (hx : x ∈ m.entries) (hy : y ∈ m.entries) (hk : x.1 = y.1) : x = y :=
  inj_on_of_nodup_map m.nodup_keys hx hy hk

def get? (m : OrdMap κ α) (k : κ) : Option α := (m.entries.find? fun entry => entry.1 = k).map Prod.snd

theorem get?_eq_some_iff : m.get? k = some a ↔ (k, a) ∈ m.entries := by
  rw [get?, Option.map_eq_some_iff]
  constructor
  · rintro ⟨⟨_, _⟩, hf, rfl⟩
    have hk := find?_some hf
    rw [decide_eq_true_eq] at hk
    subst hk
    exact mem_of_find?_eq_some hf
  · intro hmem
    cases hf : m.entries.find? fun e => e.1 = k with
    | none => exact absurd rfl (of_decide_eq_false (Bool.eq_false_iff.2 (find?_eq_none.1 hf _ hmem)))
    | some e =>
      have hk := find?_some hf
      rw [decide_eq_true_eq] at hk
      exact ⟨e, rfl, by rw [eq_of_key_eq (mem_of_find?_eq_some hf) hmem hk]⟩

theorem get?_eq_none_iff : m.get? k = none ↔ ∀ e ∈ m.entries, e.1 ≠ k := by
  rw [get?, Option.map_eq_none_iff, find?_eq_none]
  simp

theorem ext_get? (hg : ∀ k, m.get? k = n.get? k) : m = n := by
  have hmem : ∀ x, x ∈ m.entries ↔ x ∈ n.entries := by
    rintro ⟨_, _⟩
    rw [← get?_eq_some_iff, ← get?_eq_some_iff, hg]
  have hp : m.entries.Perm n.entries :=
    (perm_ext_iff_of_nodup (.of_map _ m.nodup_keys) (.of_map _ n.nodup_keys)).2 hmem
  apply ext
  exact hp.eq_of_pairwise (fun _ _ _ _ hlt hgt => absurd hgt hlt.asymm) m.sorted n.sorted

def insertEntry (k : κ) (a : α) : List (κ × α) → List (κ × α)
  | [] => [(k, a)]
  | entry :: rest =>
    if k < entry.1 then (k, a) :: entry :: rest
    else if k = entry.1 then (k, a) :: rest
    else entry :: insertEntry k a rest

theorem mem_insertEntry (hs : entries.Pairwise fun x y => x.1 < y.1) :
    x ∈ insertEntry k a entries ↔ x = (k, a) ∨ x ∈ entries ∧ x.1 ≠ k := by
  induction entries with
  | nil => simp [insertEntry]
  | cons e rest ih =>
    rw [pairwise_cons] at hs
    rw [insertEntry]
    split_ifs with hlt heq
    · have hne : x ∈ e :: rest → x.1 ≠ k := by
        intro hx
        rcases mem_cons.1 hx with rfl | hx
        · exact hlt.ne'
        · exact (hlt.trans (hs.1 x hx)).ne'
      rw [mem_cons, and_iff_left_of_imp hne]
    · have hne : x ∈ rest → x.1 ≠ k := fun hx => heq ▸ (hs.1 x hx).ne'
      have ho : x ∈ e :: rest ∧ x.1 ≠ k ↔ x ∈ rest := by
        refine ⟨fun ⟨hx, hk⟩ => ?_, fun hx => ⟨mem_cons_of_mem _ hx, hne hx⟩⟩
        rcases mem_cons.1 hx with rfl | hx
        · exact absurd heq.symm hk
        · exact hx
      rw [mem_cons, ho]
    · rw [mem_cons, ih hs.2, mem_cons]
      constructor
      · rintro (rfl | rfl | ⟨hx, hk⟩)
        · exact .inr ⟨.inl rfl, Ne.symm heq⟩
        · exact .inl rfl
        · exact .inr ⟨.inr hx, hk⟩
      · rintro (rfl | ⟨rfl | hx, hk⟩)
        · exact .inr (.inl rfl)
        · exact .inl rfl
        · exact .inr (.inr ⟨hx, hk⟩)

theorem sorted_insertEntry (hs : entries.Pairwise fun x y => x.1 < y.1) :
    (insertEntry k a entries).Pairwise fun x y => x.1 < y.1 := by
  induction entries with
  | nil => exact pairwise_singleton _ _
  | cons e rest ih =>
    have hc := pairwise_cons.1 hs
    rw [insertEntry]
    split_ifs with hlt heq
    · refine pairwise_cons.2 ⟨fun x hx => ?_, hs⟩
      rcases mem_cons.1 hx with rfl | hx
      · exact hlt
      · exact hlt.trans (hc.1 x hx)
    · exact pairwise_cons.2 ⟨fun x hx => heq ▸ hc.1 x hx, hc.2⟩
    refine pairwise_cons.2 ⟨fun x hx => ?_, ih hc.2⟩
    rcases (mem_insertEntry hc.2).1 hx with rfl | ⟨hx, -⟩
    · exact lt_of_le_of_ne (not_lt.1 hlt) (Ne.symm heq)
    · exact hc.1 x hx

/-- Puts a value under a key, in the place of the old one if there is one. -/
def insert (m : OrdMap κ α) (k : κ) (a : α) : OrdMap κ α := ⟨insertEntry k a m.entries, sorted_insertEntry m.sorted⟩

theorem mem_insert : x ∈ (m.insert k a).entries ↔ x = (k, a) ∨ x ∈ m.entries ∧ x.1 ≠ k := mem_insertEntry m.sorted

@[grind =] theorem get?_insert (m : OrdMap κ α) (k : κ) (a : α) (k' : κ) [Decidable (k' = k)] :
    (m.insert k a).get? k' = if k' = k then some a else m.get? k' := by
  apply Option.ext
  intro _
  rw [get?_eq_some_iff, mem_insert]
  split_ifs with heq
  · subst heq
    simp [eq_comm]
  · simp [get?_eq_some_iff, heq]

theorem isSome_get?_insert : ((m.insert k a).get? k').isSome ↔ k' = k ∨ (m.get? k').isSome := by
  rw [get?_insert]
  split_ifs with heq
  all_goals simp [heq]

theorem get?_insert_iff {b : α} :
    (m.insert k a).get? k' = some b ↔ k' = k ∧ b = a ∨ k' ≠ k ∧ m.get? k' = some b := by
  rw [get?_insert]
  split_ifs with heq
  · simp [heq, eq_comm]
  · simp [heq]

theorem forall_insert {P : κ → α → Prop} (hn : P k a) (ho : ∀ k b, m.get? k = some b → P k b) (k' : κ) (b : α)
    (hg : (m.insert k a).get? k' = some b) : P k' b := by
  rcases get?_insert_iff.1 hg with ⟨rfl, rfl⟩ | ⟨-, hol⟩
  · exact hn
  · exact ho k' b hol

/-- The map of a list of entries; of two values for one key the last one counts. -/
def ofList (entries : List (κ × α)) : OrdMap κ α := entries.foldl (fun m entry => m.insert entry.1 entry.2) empty

theorem mem_ofList (hx : x ∈ (ofList entries).entries) : x ∈ entries := by
  have hf : ∀ m : OrdMap κ α, x ∈ (entries.foldl (fun m e => m.insert e.1 e.2) m).entries →
      x ∈ m.entries ∨ x ∈ entries := by
    clear hx
    induction entries with
    | nil => exact fun m hx => .inl hx
    | cons e rest ih =>
      intro m hx
      rcases ih _ hx with hx | hx
      · rcases mem_insert.1 hx with rfl | ⟨hx, -⟩
        · exact .inr mem_cons_self
        · exact .inl hx
      · exact .inr (mem_cons_of_mem _ hx)
  exact (hf empty hx).resolve_left nofun

theorem perm_insert (hv : m.get? k = none) (a : α) : (m.insert k a).entries.Perm ((k, a) :: m.entries) := by
  have hn : ∀ e ∈ m.entries, e.1 ≠ k := get?_eq_none_iff.1 hv
  have hp : ∀ entries : List (κ × α), (∀ e ∈ entries, e.1 ≠ k) →
      (insertEntry k a entries).Perm ((k, a) :: entries) := by
    intro entries hne
    induction entries with
    | nil => exact .refl _
    | cons e rest ih =>
      rw [insertEntry, if_neg (Ne.symm (hne e mem_cons_self))]
      split_ifs
      · exact .refl _
      · exact ((ih fun x hx => hne x (mem_cons_of_mem _ hx)).cons e).trans (.swap _ _ _)
  exact hp m.entries hn

def erase (m : OrdMap κ α) (k : κ) : OrdMap κ α :=
  ⟨m.entries.filter fun entry => entry.1 ≠ k, m.sorted.sublist List.filter_sublist⟩

@[grind =] theorem get?_erase (m : OrdMap κ α) (k k' : κ) [Decidable (k' = k)] :
    (m.erase k).get? k' = if k' = k then none else m.get? k' := by
  apply Option.ext
  intro _
  rw [get?_eq_some_iff, erase, mem_filter]
  split_ifs with heq
  · simp [heq]
  · simp [get?_eq_some_iff, heq]

theorem get?_erase_of_ne (hne : k' ≠ k) : (m.erase k).get? k' = m.get? k' := (get?_erase m k k').trans (if_neg hne)

theorem get?_erase_iff : (m.erase k).get? k' = some a ↔ k' ≠ k ∧ m.get? k' = some a := by
  rw [get?_erase]
  split_ifs with heq
  all_goals simp [heq]

section

variable (m : OrdMap κ α) (keep : κ → α → Bool)

def retain : OrdMap κ α := ⟨m.entries.filter fun entry => keep entry.1 entry.2, m.sorted.sublist List.filter_sublist⟩

@[grind =] theorem get?_retain (k : κ) : (m.retain keep).get? k = (m.get? k).filter (keep k) := by
  apply Option.ext
  intro _
  rw [get?_eq_some_iff, retain, mem_filter, Option.filter_eq_some_iff, get?_eq_some_iff]

@[grind =] theorem get?_empty (k : κ) : (empty : OrdMap κ α).get? k = none := rfl

theorem insert_erase (k : κ) (a : α) : (m.erase k).insert k a = m.insert k a := by
  apply ext_get?
  intro _
  simp only [get?_insert, get?_erase]
  split_ifs <;> rfl

theorem erase_insert (k : κ) (a : α) : (m.insert k a).erase k = m.erase k := by
  apply ext_get?
  intro _
  simp only [get?_insert, get?_erase]
  split_ifs <;> rfl

end

theorem insert_of_get? (hg : m.get? k = some a) : m.insert k a = m := by
  apply ext_get?
  intro _
  rw [get?_insert]
  split_ifs with heq
  · rw [heq, hg]
  · rfl

theorem perm_insert_erase (m : OrdMap κ α) (k : κ) (a : α) :
    (m.insert k a).entries.Perm ((k, a) :: (m.erase k).entries) := by
  have hv : (m.erase k).get? k = none := by rw [get?_erase, if_pos rfl]
  rw [← insert_erase]
  exact perm_insert hv a

theorem perm_erase (hg : m.get? k = some a) : m.entries.Perm ((k, a) :: (m.erase k).entries) := by
  have hp := perm_insert_erase m k a
  rwa [insert_of_get? hg] at hp

theorem erase_of_get?_none (hg : m.get? k = none) : m.erase k = m := by
  apply ext_get?
  intro _
  rw [get?_erase]
  split_ifs with heq
  · rw [heq, hg]
  · rfl

theorem countP_insert (m : OrdMap κ α) (k : κ) (a : α) (p : κ × α → Bool) :
    (m.insert k a).entries.countP p = (m.erase k).entries.countP p + if p (k, a) then 1 else 0 :=
  ((m.perm_insert_erase k a).countP_eq p).trans countP_cons

theorem countP_of_get? (hg : m.get? k = some a) (p : κ × α → Bool) :
    m.entries.countP p = (m.erase k).entries.countP p + if p (k, a) then 1 else 0 :=
  ((perm_erase hg).countP_eq p).trans countP_cons

theorem length_insert_eq (m : OrdMap κ α) (k : κ) (a : α) :
    (m.insert k a).entries.length = (m.erase k).entries.length + 1 :=
  (perm_insert_erase m k a).length_eq

theorem length_erase_le (m : OrdMap κ α) (k : κ) : (m.erase k).entries.length ≤ m.entries.length := length_filter_le _ _

theorem length_insert_le (m : OrdMap κ α) (k : κ) (a : α) : (m.insert k a).entries.length ≤ m.entries.length + 1 := by
  rw [length_insert_eq]
  exact Nat.succ_le_succ (length_erase_le m k)

theorem length_insert_of_get? (hg : m.get? k = some a) (b : α) :
    (m.insert k b).entries.length = m.entries.length := by
  calc (m.insert k b).entries.length = (m.erase k).entries.length + 1 := length_insert_eq m k b
    _ = (m.insert k a).entries.length := (length_insert_eq m k a).symm
    _ = m.entries.length := by rw [insert_of_get? hg]

def adjust (m : OrdMap κ α) (k : κ) (f : α → α) : OrdMap κ α where
  entries := m.entries.map fun entry => if entry.1 = k then (entry.1, f entry.2) else entry
  sorted := by
    rw [List.pairwise_map]
    refine m.sorted.imp fun {x y} hlt => ?_
    split_ifs <;> exact hlt

theorem adjust_split (hg : m.get? k = some a) (f : α → α) : ∃ pre after, m.entries = pre ++ (k, a) :: after ∧
      (m.adjust k f).entries = pre ++ (k, f a) :: after := by
  obtain ⟨pre, after, hs⟩ := append_of_mem (get?_eq_some_iff.1 hg)
  refine ⟨pre, after, hs, ?_⟩
  have hso := m.sorted
  rw [hs, pairwise_append, pairwise_cons] at hso
  have hb : ∀ e ∈ pre, e.1 ≠ k := fun e he =>
    (hso.2.2 e he _ mem_cons_self).ne
  have ha : ∀ e ∈ after, e.1 ≠ k := fun e he => (hso.2.1.1 e he).ne'
  have hk : ∀ entries : List (κ × α), (∀ e ∈ entries, e.1 ≠ k) →
      entries.map (fun e => if e.1 = k then (e.1, f e.2) else e) = entries := by
    intro entries hne
    refine (map_congr_left fun e he => ?_).trans (map_id _)
    exact if_neg (hne e he)
  simp [adjust, hs, hk pre hb, hk after ha]

def mapValues {β : Type} (m : OrdMap κ α) (f : α → β) : OrdMap κ β where
  entries := m.entries.map fun entry => (entry.1, f entry.2)
  sorted := List.pairwise_map.mpr (m.sorted.imp fun hlt => hlt)

@[grind =] theorem get?_mapValues {β : Type} (m : OrdMap κ α) (f : α → β) (k : κ) :
    (m.mapValues f).get? k = (m.get? k).map f := by
  apply Option.ext
  intro _
  rw [get?_eq_some_iff, mapValues, mem_map, Option.map_eq_some_iff]
  constructor
  · rintro ⟨e, he, heq⟩
    cases heq
    exact ⟨e.2, get?_eq_some_iff.2 he, rfl⟩
  · rintro ⟨a, hg, rfl⟩
    exact ⟨(k, a), get?_eq_some_iff.1 hg, rfl⟩

@[grind =] theorem get?_adjust (m : OrdMap κ α) (k : κ) (f : α → α) (k' : κ) [Decidable (k' = k)] :
    (m.adjust k f).get? k' = if k' = k then (m.get? k').map f else m.get? k' := by
  apply Option.ext
  intro b
  rw [get?_eq_some_iff, adjust, mem_map]
  split_ifs with heq
  · rw [Option.map_eq_some_iff]
    constructor
    · rintro ⟨e, he, hc⟩
      split_ifs at hc with hk
      · cases hc
        exact ⟨e.2, get?_eq_some_iff.2 he, rfl⟩
      · rw [hc] at hk
        exact absurd heq hk
    · rintro ⟨a, hg, rfl⟩
      exact ⟨(k', a), get?_eq_some_iff.1 hg, if_pos heq⟩
  · rw [get?_eq_some_iff]
    constructor
    · rintro ⟨e, he, hc⟩
      split_ifs at hc with hk
      · cases hc
        exact absurd hk heq
      · exact hc ▸ he
    · intro he
      exact ⟨(k', b), he, if_neg heq⟩

/-- Other values under the same keys. -/
def withEntries (m : OrdMap κ α) (entries : List (κ × α))
    (hkeys : entries.map Prod.fst = m.entries.map Prod.fst) : OrdMap κ α :=
  ⟨entries, List.pairwise_map.mp (hkeys ▸ List.pairwise_map.mpr m.sorted)⟩

end OrdMap

/-! Sets of values that are compared by a key only: hash sets of a type whose equality looks at a part of the
value. Inserting a value does not replace the one with the same key that is there already. -/

structure KeySet {α κ : Type} (keyOf : α → κ) where
  elems : List α
  distinct : (elems.map keyOf).Nodup

namespace KeySet

variable {α κ : Type} {keyOf : α → κ}

instance : Membership α (KeySet keyOf) := ⟨fun set a => a ∈ set.elems⟩

variable {set : KeySet keyOf} {a x : α}

theorem mem_def : a ∈ set ↔ a ∈ set.elems := Iff.rfl

def empty : KeySet keyOf := ⟨[], .nil⟩

theorem not_mem_empty (a : α) : a ∉ (empty : KeySet keyOf) := List.not_mem_nil

variable [DecidableEq κ]

def insert (set : KeySet keyOf) (a : α) : KeySet keyOf :=
  if hknown : keyOf a ∈ set.elems.map keyOf then set
  else ⟨a :: set.elems, List.nodup_cons.mpr ⟨hknown, set.distinct⟩⟩

def remove (set : KeySet keyOf) (a : α) : KeySet keyOf where
  elems := set.elems.filter fun x => keyOf x ≠ keyOf a
  distinct := set.distinct.sublist (List.filter_sublist.map keyOf)

theorem mem_remove : x ∈ set.remove a ↔ x ∈ set ∧ keyOf x ≠ keyOf a := by simp [remove, mem_def]

theorem mem_insert_of_new (hn : ∀ y ∈ set, keyOf y ≠ keyOf a) : x ∈ set.insert a ↔ x = a ∨ x ∈ set := by
  have hu : keyOf a ∉ set.elems.map keyOf := by
    intro hk
    obtain ⟨y, hy, hke⟩ := List.mem_map.1 hk
    exact hn y hy hke
  simp [insert, hu, mem_def]

theorem mem_insert_remove {b : α} (hk : keyOf b = keyOf a) :
    x ∈ (set.remove b).insert a ↔ x = a ∨ x ∈ set ∧ keyOf x ≠ keyOf a := by
  have hn : ∀ y ∈ set.remove b, keyOf y ≠ keyOf a := by
    intro y hy
    rw [← hk]
    exact (mem_remove.1 hy).2
  rw [mem_insert_of_new hn, mem_remove, hk]

end KeySet
end RustLibp2p
