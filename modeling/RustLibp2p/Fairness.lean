import Mathlib.Data.Nat.Init

/-! Infinite runs of a machine under a schedule of actions. If every action leaves the state as it is or
decreases it in a well-founded order, and before the end some kind of action always changes it, then a
fair schedule comes to the end. -/

namespace RustLibp2p.Fairness

variable {σ α κ : Type} (step : σ → α → σ) (helps : κ → α → Prop)

/-- The state after the first `time` actions. -/
def stateAt (start : σ) (schedule : Nat → α) : Nat → σ
  | 0 => start
  | time + 1 => step (stateAt start schedule time) (schedule time)

/-- Actions of every kind are never over. -/
def Fair (schedule : Nat → α) : Prop := ∀ kind time, ∃ later, time ≤ later ∧ helps kind (schedule later)

variable {step helps} {start : σ} {schedule : Nat → α}

theorem stateAt_invariant {Inv : σ → Prop} (hs : ∀ st act, Inv st → Inv (step st act))
    (hst : Inv start) (schedule : Nat → α) (time : Nat) : Inv (stateAt step start schedule time) := by
  induction time with
  | zero => exact hst
  | succ time ih => exact hs _ _ ih

theorem exists_step_of_ne {state : σ} {time later : Nat}
    (hs : stateAt step start schedule time = state) (hle : time ≤ later)
    (hne : stateAt step start schedule later ≠ state) :
    ∃ between, time ≤ between ∧ stateAt step start schedule between = state ∧
      step state (schedule between) ≠ state := by
  induction later, hle using Nat.le_induction with
  | base => exact absurd hs hne
  | succ later hle ih =>
    by_cases hsa : stateAt step start schedule later = state
    · refine ⟨later, hle, hsa, ?_⟩
      rw [← hsa]
      rw [← hsa] at hne
      exact hne
    · exact ih hsa

variable {less : σ → σ → Prop} {Inv Done : σ → Prop}

theorem eventually_of_fair (hl : WellFounded less) (hs : ∀ state act, Inv state → Inv (step state act))
    (hp : ∀ state act, Inv state → step state act = state ∨ less (step state act) state)
    (hh : ∀ state, Inv state → ¬ Done state → ∃ kind, ∀ act, helps kind act → step state act ≠ state)
    (hst : Inv start) (hf : Fair helps schedule) : ∃ time, Done (stateAt step start schedule time) := by
  -- from any time on, by induction on the state at that time
  have hfr : ∀ state, ∀ time, stateAt step start schedule time = state →
      ∃ time, Done (stateAt step start schedule time) := by
    intro state
    induction state using hl.induction with
    | _ state ih =>
      intro time hstt
      have hi : Inv state := hstt ▸ stateAt_invariant hs hst schedule time
      by_cases hd : Done state
      · exact ⟨time, hstt ▸ hd⟩
      obtain ⟨kind, hk⟩ := hh state hi hd
      obtain ⟨later, hle, hhe⟩ := hf kind time
      obtain ⟨between, -, hb, hc⟩ : ∃ between, time ≤ between ∧
          stateAt step start schedule between = state ∧ step state (schedule between) ≠ state := by
        by_cases hsa : stateAt step start schedule later = state
        · exact ⟨later, hle, hsa, hk _ hhe⟩
        · exact exists_step_of_ne hstt hle hsa
      rcases hp state (schedule between) hi with hsa | hde
      · exact absurd hsa hc
      · refine ih _ hde (between + 1) ?_
        rw [stateAt, hb]
  exact hfr start 0 rfl

end RustLibp2p.Fairness
