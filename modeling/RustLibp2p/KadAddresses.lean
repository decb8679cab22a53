import Mathlib.Data.List.Nodup
import RustLibp2p.Transition

/-! The addresses of a peer in the routing table. -/

namespace RustLibp2p.Kad
open List Transition

structure Addresses (Addr : Type) where
  addrs : List Addr

inductive AddressCall (Addr : Type) where
  | insert (addr : Addr)
  | remove (addr : Addr)
  | replace (old new : Addr)

namespace Addresses

variable {Addr : Type}

def new (addr : Addr) : Addresses Addr := ⟨[addr]⟩

variable [DecidableEq Addr] (self : Addresses Addr)

/-- The last remaining address cannot be removed; the answer `false` is an error. -/
def remove (addr : Addr) : Bool × Addresses Addr :=
  if self.addrs = [addr] then (false, self) else (true, ⟨self.addrs.erase addr⟩)

def insert (addr : Addr) : Bool × Addresses Addr :=
  if self.addrs.all (· ≠ addr) then (true, ⟨self.addrs ++ [addr]⟩) else (false, self)

/-- The first occurrence of the old address is overwritten, whatever else is in the list. -/
def replace (old new : Addr) : Bool × Addresses Addr :=
  if old ∈ self.addrs then (true, ⟨self.addrs.replace old new⟩) else (false, self)

def step : AddressCall Addr → Bool × Addresses Addr
  | .insert addr => self.insert addr
  | .remove addr => self.remove addr
  | .replace old new => self.replace old new

/-- An address of the list gives way to one that is not in the list, or to itself. -/
def Fresh : AddressCall Addr → Prop
  | .replace old new => old ∈ self.addrs → new ∈ self.addrs → new = old
  | _ => True

variable {self} {l : List Addr} {old new : Addr} {call : AddressCall Addr}

theorem nodup_replace (ho : old ∈ l) (hn : l.Nodup) : (l.replace old new).Nodup ↔ (new ∈ l → new = old) := by
  obtain ⟨pre, post, rfl, hp⟩ := eq_append_cons_of_mem ho
  rw [nodup_middle, nodup_cons] at hn
  rw [replace_append_right hp, replace_cons_self, nodup_middle, nodup_cons]
  grind

theorem step_ne_nil (hs : self.addrs ≠ []) : (self.step call).2.addrs ≠ [] := by
  cases call with
  | insert | remove =>
    simp only [step, insert, remove]
    split_ifs <;> simp [*]
  | replace old new =>
    simp only [step, replace, ← length_pos_iff] at hs ⊢
    split_ifs
    · rwa [length_replace]
    · exact hs

theorem step_nodup (hn : self.addrs.Nodup) : (self.step call).2.addrs.Nodup ↔ self.Fresh call := by
  cases call with
  | insert | remove =>
    simp only [step, insert, remove, Fresh]
    split_ifs <;> simp_all [nodup_append, hn.erase]
  | replace old new =>
    simp only [step, replace, Fresh]
    split_ifs with ho
    · rw [nodup_replace ho hn, forall_prop_of_true ho]
    · simp [hn, ho]

theorem run_ne_nil (calls : List (AddressCall Addr)) (hs : self.addrs ≠ []) :
    (runTotal step self calls).2.addrs ≠ [] := by
  induction calls generalizing self with
  | nil => exact hs
  | cons call calls ih => exact ih (step_ne_nil hs)

theorem run_nodup (calls : List (AddressCall Addr)) (hn : self.addrs.Nodup) :
    (∀ pre, pre <+: calls → (runTotal step self pre).2.addrs.Nodup) ↔ AlongTotal step Fresh self calls := by
  induction calls generalizing self with
  | nil => simpa [prefix_nil, AlongTotal, runTotal] using hn
  | cons call calls ih =>
    simp only [prefix_cons_iff, AlongTotal, ← step_nodup hn]
    constructor
    · intro h
      have hs := h [call] (.inr ⟨[], rfl, nil_prefix⟩)
      exact ⟨hs, (ih hs).1 fun pre hp => h (call :: pre) (.inr ⟨pre, rfl, hp⟩)⟩
    · rintro ⟨hs, ha⟩ _ (rfl | ⟨pre, rfl, hp⟩)
      · exact hn
      · exact (ih hs).2 ha pre hp

/-- The list is never empty. It is free of duplicates after every call exactly if every address that is replaced gives
way to one that is not in the list. -/
theorem addresses_run (addr : Addr) (calls : List (AddressCall Addr)) :
    (runTotal step (Addresses.new addr) calls).2.addrs ≠ [] ∧
      ((∀ pre, pre <+: calls → (runTotal step (Addresses.new addr) pre).2.addrs.Nodup) ↔
        AlongTotal step Fresh (Addresses.new addr) calls) :=
  ⟨run_ne_nil calls (cons_ne_nil _ _), run_nodup calls (nodup_singleton addr)⟩

theorem replaced_twice : ¬ (runTotal step (Addresses.new 0) [.insert 1, .replace 0 1]).2.addrs.Nodup := by decide

end Addresses
end RustLibp2p.Kad
