import Mathlib.Logic.Basic

/-! Runs of a machine whose steps answer with an output and may fail. A condition can be asked of
every step of a run; an invariant of the steps that meet it holds at the end of the run, and a
machine that never fails can stand for one that is simulated by it. -/

namespace RustLibp2p.Transition
open List

variable {σ τ ι ω ε : Type}

/-- The outputs of a run in order, and the state it ends in. -/
def run (step : σ → ι → Except ε (ω × σ)) : σ → List ι → Except ε (List ω × σ)
  | s, [] => .ok ([], s)
  | s, input :: inputs =>
    match step s input with
    | .error e => .error e
    | .ok (output, next) =>
      match run step next inputs with
      | .error e => .error e
      | .ok (outputs, last) => .ok (output :: outputs, last)

/-- The run of a machine that cannot fail. -/
def runTotal (spec : τ → ι → ω × τ) : τ → List ι → List ω × τ
  | t, [] => ([], t)
  | t, input :: inputs =>
    let rest := runTotal spec (spec t input).2 inputs
    ((spec t input).1 :: rest.1, rest.2)

/-- Every input is allowed in the state it is given in. -/
def Along (step : σ → ι → Except ε (ω × σ)) (allowed : σ → ι → Prop) : σ → List ι → Prop
  | _, [] => True
  | s, input :: inputs =>
    allowed s input ∧ ∀ output next, step s input = .ok (output, next) → Along step allowed next inputs

variable {step : σ → ι → Except ε (ω × σ)} {s last : σ} {inputs : List ι} {outputs : List ω} {allowed : σ → ι → Prop}
  {spec : τ → ι → ω × τ} {t : τ} {input : ι}

theorem run_cons_eq_ok (hrun : run step s (input :: inputs) = .ok (outputs, last)) :
    ∃ out next later, step s input = .ok (out, next) ∧
      run step next inputs = .ok (later, last) ∧ outputs = out :: later := by
  cases hs : step s input with
  | error => simp only [run, hs, reduceCtorEq] at hrun
  | ok pair =>
    obtain ⟨out, next⟩ := pair
    cases hr : run step next inputs with
    | error => simp only [run, hs, hr, reduceCtorEq] at hrun
    | ok rest =>
      obtain ⟨later, _⟩ := rest
      simp only [run, hs, hr, Except.ok.injEq, Prod.mk.injEq] at hrun
      obtain ⟨rfl, rfl⟩ := hrun
      exact ⟨out, next, later, rfl, hr, rfl⟩

/-- Whether every step is allowed can be found out by taking the steps. -/
instance decidableAlong {allowed : σ → ι → Prop} [∀ s input, Decidable (allowed s input)] :
    ∀ (s : σ) (inputs : List ι), Decidable (Along step allowed s inputs)
  | _, [] => .isTrue trivial
  | s, input :: inputs =>
    match hstep : step s input with
    | .error _ => decidable_of_iff (allowed s input) ⟨fun h => ⟨h, by simp [hstep]⟩, fun h => h.1⟩
    | .ok (output, next) =>
      have : Decidable (Along step allowed next inputs) := decidableAlong next inputs
      decidable_of_iff (allowed s input ∧ Along step allowed next inputs)
        ⟨fun h => ⟨h.1, fun _ _ heq => by cases hstep.symm.trans heq; exact h.2⟩, fun h => ⟨h.1, h.2 output next hstep⟩⟩

variable {inputs' : List ι}

theorem run_append_eq_ok (hrun : run step s (inputs ++ inputs') = .ok (outputs, last)) :
    ∃ pre middle after, run step s inputs = .ok (pre, middle) ∧
      run step middle inputs' = .ok (after, last) ∧ outputs = pre ++ after := by
  induction inputs generalizing s outputs with
  | nil => exact ⟨[], s, outputs, rfl, hrun, rfl⟩
  | cons input inputs ih =>
    obtain ⟨out, _, _, hf, hr, rfl⟩ := run_cons_eq_ok hrun
    obtain ⟨pre, middle, after, hb, ha, rfl⟩ := ih hr
    exact ⟨out :: pre, middle, after, by simp [run, hf, hb], ha, rfl⟩

theorem along_of_forall (hall : ∀ s input, allowed s input) (s : σ)
    (inputs : List ι) : Along step allowed s inputs := by
  induction inputs generalizing s with
  | nil => trivial
  | cons input inputs ih => exact ⟨hall s input, fun _ next _ => ih next⟩

theorem along_congr {allowed' : σ → ι → Prop} (hiff : ∀ s input, allowed s input ↔ allowed' s input) :
    Along step allowed s inputs ↔ Along step allowed' s inputs := by
  rw [show allowed = allowed' from funext₂ fun s input => propext (hiff s input)]

/-- What every allowed step preserves, next to the inputs and the outputs so far, holds at the end of
every allowed run. -/
theorem run_trace {Inv : List ι → List ω → σ → Prop}
    (hst : ∀ past given s input out next, Inv past given s → allowed s input →
      step s input = .ok (out, next) → Inv (past ++ [input]) (given ++ [out]) next) (past : List ι) (given : List ω)
    (hs : Inv past given s) (hall : Along step allowed s inputs)
    (hrun : run step s inputs = .ok (outputs, last)) : Inv (past ++ inputs) (given ++ outputs) last := by
  induction inputs generalizing past given s outputs with
  | nil =>
    simp only [run, Except.ok.injEq, Prod.mk.injEq] at hrun
    obtain ⟨rfl, rfl⟩ := hrun
    rwa [append_nil, append_nil]
  | cons input inputs ih =>
    obtain ⟨out, next, _, hf, hr, rfl⟩ := run_cons_eq_ok hrun
    have hl := ih (past ++ [input]) (given ++ [out])
      (hst past given s input out next hs hall.1 hf) (hall.2 out next hf) hr
    rwa [append_assoc, append_assoc, singleton_append, singleton_append] at hl

theorem run_along {Inv : List ι → σ → Prop}
    (hst : ∀ past s input out next, Inv past s → allowed s input → step s input = .ok (out, next) →
      Inv (past ++ [input]) next) (past : List ι)
    (hs : Inv past s) (hall : Along step allowed s inputs)
    (hrun : run step s inputs = .ok (outputs, last)) : Inv (past ++ inputs) last :=
  run_trace (fun past _ => hst past) past [] hs hall hrun

theorem run_invariant {Inv : σ → Prop}
    (hst : ∀ s input out next, Inv s → allowed s input → step s input = .ok (out, next) → Inv next)
    (hs : Inv s) (hall : Along step allowed s inputs) (hrun : run step s inputs = .ok (outputs, last)) : Inv last :=
  run_along (fun _ => hst) [] hs hall hrun

variable {Inv : List ω → σ → Prop}

/-- What every allowed step can extend holds at the end of every allowed run, and no allowed run fails. -/
theorem run_total_along (hst : ∀ past s input, Inv past s → allowed s input →
      ∃ out next, step s input = .ok (out, next) ∧ Inv (past ++ [out]) next)
    (inputs : List ι) (past : List ω) (hs : Inv past s) (hall : Along step allowed s inputs) :
    ∃ outputs last, run step s inputs = .ok (outputs, last) ∧ Inv (past ++ outputs) last := by
  induction inputs generalizing past s with
  | nil => exact ⟨[], s, rfl, by rwa [append_nil]⟩
  | cons input inputs ih =>
    obtain ⟨out, next, hf, hn⟩ := hst past s input hs hall.1
    obtain ⟨outputs, last, hr, hl⟩ := ih (past ++ [out]) hn (hall.2 out next hf)
    refine ⟨out :: outputs, last, by simp [run, hf, hr], ?_⟩
    rwa [append_assoc, singleton_append] at hl

/-- A property of the outputs so far and the state that every step can extend holds at the end of
every run, and no run fails. -/
theorem run_total_invariant (hst : ∀ past s input, Inv past s →
      ∃ out next, step s input = .ok (out, next) ∧ Inv (past ++ [out]) next)
    (inputs : List ι) {past : List ω} (hs : Inv past s) :
    ∃ outputs last, run step s inputs = .ok (outputs, last) ∧ Inv (past ++ outputs) last :=
  run_total_along (fun past s input hi _ => hst past s input hi) inputs past hs
    (along_of_forall (fun _ _ => trivial) s inputs)

theorem run_total (hs : ∀ s input, ∃ out next, step s input = .ok (out, next)) (s : σ)
    (inputs : List ι) : ∃ outputs last, run step s inputs = .ok (outputs, last) := by
  induction inputs generalizing s with
  | nil => exact ⟨[], s, rfl⟩
  | cons input inputs ih =>
    obtain ⟨out, next, hf⟩ := hs s input
    obtain ⟨outputs, last, hr⟩ := ih next
    exact ⟨out :: outputs, last, by simp [run, hf, hr]⟩

/-- A machine that answers as the total one does, step by step, answers as it does over every run,
and in particular never fails. -/
theorem run_simulation {R : σ → τ → Prop}
    (hs : ∀ s t input, R s t → ∃ next, step s input = .ok ((spec t input).1, next) ∧ R next (spec t input).2)
    (inputs : List ι) (hst : R s t) : ∃ last, run step s inputs = .ok ((runTotal spec t inputs).1, last) ∧
      R last (runTotal spec t inputs).2 := by
  induction inputs generalizing s t with
  | nil => exact ⟨s, rfl, hst⟩
  | cons input inputs ih =>
    obtain ⟨_, hf, hn⟩ := hs s t input hst
    obtain ⟨last, hr, hl⟩ := ih hn
    exact ⟨last, by simp [run, hf, hr, runTotal], hl⟩

/-- Every input to a machine that cannot fail is allowed in the state it is given in. -/
def AlongTotal (spec : τ → ι → ω × τ) (allowed : τ → ι → Prop) : τ → List ι → Prop
  | _, [] => True
  | t, input :: inputs => allowed t input ∧ AlongTotal spec allowed (spec t input).2 inputs

instance decidableAlongTotal {spec : τ → ι → ω × τ} {allowed : τ → ι → Prop} [∀ t input, Decidable (allowed t input)] :
    ∀ (t : τ) (inputs : List ι), Decidable (AlongTotal spec allowed t inputs)
  | _, [] => .isTrue trivial
  | t, input :: inputs =>
    have : Decidable (AlongTotal spec allowed (spec t input).2 inputs) := decidableAlongTotal _ inputs
    inferInstanceAs (Decidable (_ ∧ _))

variable {allowed : τ → ι → Prop}

theorem alongTotal_of_mem
    (hall : ∀ t, ∀ input ∈ inputs, allowed t input) (t : τ) : AlongTotal spec allowed t inputs := by
  induction inputs generalizing t with
  | nil => trivial
  | cons input inputs ih =>
    have hr : ∀ t, ∀ other ∈ inputs, allowed t other :=
      fun t' other ho => hall t' other (mem_cons_of_mem _ ho)
    exact ⟨hall t input mem_cons_self, ih hr _⟩

theorem alongTotal_of_forall
    (hall : ∀ t input, allowed t input) (t : τ) (inputs : List ι) : AlongTotal spec allowed t inputs :=
  alongTotal_of_mem (fun t' input _ => hall t' input) t

theorem alongTotal_congr {allowed' : τ → ι → Prop} (hiff : ∀ t input, allowed t input ↔ allowed' t input) :
    AlongTotal spec allowed t inputs ↔ AlongTotal spec allowed' t inputs := by
  rw [show allowed = allowed' from funext₂ fun t input => propext (hiff t input)]

variable {Inv : List ω → τ → Prop}

/-- A property of the outputs so far and the state that every allowed step extends holds at the end of
every allowed run. -/
theorem runTotal_along
    (hs : ∀ past t input, Inv past t → allowed t input → Inv (past ++ [(spec t input).1]) (spec t input).2)
    (inputs : List ι) (past : List ω) (ht : Inv past t) (hall : AlongTotal spec allowed t inputs) :
    Inv (past ++ (runTotal spec t inputs).1) (runTotal spec t inputs).2 := by
  induction inputs generalizing past t with
  | nil => rwa [runTotal, append_nil]
  | cons input inputs ih =>
    have hl := ih (past ++ [(spec t input).1]) (hs past t input ht hall.1) hall.2
    rwa [append_assoc, singleton_append] at hl

theorem runTotal_history
    (hs : ∀ past t input, Inv past t → Inv (past ++ [(spec t input).1]) (spec t input).2) (inputs : List ι)
    (past : List ω) (ht : Inv past t) : Inv (past ++ (runTotal spec t inputs).1) (runTotal spec t inputs).2 :=
  runTotal_along (fun past t input hi _ => hs past t input hi) inputs past ht
    (alongTotal_of_forall (fun _ _ => trivial) t inputs)

theorem alongTotal_append_left
    (ha : AlongTotal spec allowed t (inputs ++ inputs')) : AlongTotal spec allowed t inputs := by
  induction inputs generalizing t with
  | nil => trivial
  | cons input inputs ih => exact ⟨ha.1, ih ha.2⟩

theorem alongTotal_last
    (ha : AlongTotal spec allowed t (inputs ++ [input])) : allowed (runTotal spec t inputs).2 input := by
  induction inputs generalizing t with
  | nil => exact ha.1
  | cons first inputs ih => exact ih ha.2

theorem runTotal_eq_append_cons
    {pre after : List ω} {output : ω} (ho : (runTotal spec t inputs).1 = pre ++ output :: after) :
    ∃ first input rest, inputs = first ++ input :: rest ∧ (runTotal spec t first).1 = pre ∧
      (spec (runTotal spec t first).2 input).1 = output := by
  induction inputs generalizing t pre with
  | nil =>
    rw [runTotal] at ho
    cases pre <;> cases ho
  | cons input inputs ih =>
    rw [runTotal] at ho
    cases pre with
    | nil => exact ⟨[], input, inputs, rfl, rfl, (List.cons.inj ho).1⟩
    | cons =>
      obtain ⟨he, hr⟩ := List.cons.inj ho
      obtain ⟨first, found, rest, rfl, hb, hou⟩ := ih hr
      refine ⟨input :: first, found, rest, rfl, ?_, hou⟩
      show (spec t input).1 :: (runTotal spec (spec t input).2 first).1 = _
      rw [hb, he]

end RustLibp2p.Transition
