import Mathlib.Data.List.Count
import Mathlib.Tactic.Linarith
import RustLibp2p.Transition

/-! The rate limiter of a relay server. The buckets that are tracked wait in a schedule in the order of
their last refill, and are refilled when they are due at the next call, for any id. Times are in
nanoseconds. -/

namespace RustLibp2p.Relay
open List Transition

/-- The limit, a word of 32 bits, and the interval for one token, which a limiter keeps as they are. -/
structure GenericRateLimiterConfig where
  limit : Nat
  interval : Nat
  limit_pos : 0 < limit
  limit_lt : limit < 2 ^ 32
  interval_pos : 0 < interval

structure GenericRateLimiter (Id : Type) where
  refillSchedule : List (Nat × Id)
  buckets : Id → Option Nat

def u32Max : Nat := 2 ^ 32 - 1

variable (config : GenericRateLimiterConfig)

/-- The tokens for a time, which are counted in microseconds. -/
def GenericRateLimiterConfig.newTokens (elapsed : Nat) : Nat :=
  if config.interval / 1000 = 0 then u32Max else min (elapsed / 1000 / (config.interval / 1000)) u32Max

namespace GenericRateLimiter

variable {Id : Type}

def new : GenericRateLimiter Id := ⟨[], fun _ => none⟩

def due (limiter : GenericRateLimiter Id) (now : Nat) : Nat :=
  limiter.refillSchedule.countP fun entry => config.interval ≤ now - entry.1

variable [DecidableEq Id]

section

variable (limiter : GenericRateLimiter Id) (id : Id) (now : Nat)

def setBucket (bucket : Option Nat) (schedule : List (Nat × Id)) : GenericRateLimiter Id :=
  ⟨schedule, Function.update limiter.buckets id bucket⟩

/-- A bucket that is full again is no longer tracked. -/
def refillBucket (lastRefill balance : Nat) (rest : List (Nat × Id)) : GenericRateLimiter Id :=
  let newBalance := min (balance + config.newTokens (now - lastRefill)) u32Max
  if newBalance < config.limit then limiter.setBucket id (some newBalance) (rest ++ [(now, id)])
  else limiter.setBucket id none rest

/-- A round of the loop of `refill`; the loop ends with `none`. -/
def refillRound : Except String (Option (GenericRateLimiter Id)) :=
  match limiter.refillSchedule with
  | [] => .ok none
  | (lastRefill, id) :: rest =>
    if config.interval ≤ now - lastRefill then
      match limiter.buckets id with
      | none => .error "Entry can only be removed via refill."
      | some balance => .ok (some (limiter.refillBucket config id now lastRefill balance rest))
    else .ok none

end

variable {config} {limiter next : GenericRateLimiter Id} {id other : Id} {now time last balance start granted : Nat}
  {rest : List (Nat × Id)}

/-- The bucket that is refilled comes back with the present time, if at all. -/
theorem due_of_refillRound (hr : limiter.refillRound config now = .ok (some next)) :
    next.due config now < limiter.due config now := by
  have hpos := config.interval_pos
  unfold refillRound at hr
  split at hr
  · cases hr
  · next hsc =>
    split_ifs at hr with hd
    · split at hr
      · cases hr
      cases hr
      unfold refillBucket
      dsimp only
      split_ifs <;> simp [due, hsc, hd, setBucket, hpos.ne']
    · cases hr

def refill (config : GenericRateLimiterConfig) (limiter : GenericRateLimiter Id) (now : Nat) :
    Except String (GenericRateLimiter Id) :=
  match _hround : limiter.refillRound config now with
  | .error message => .error message
  | .ok none => .ok limiter
  | .ok (some next) => next.refill config now
termination_by limiter.due config now
decreasing_by exact due_of_refillRound _hround

section

variable (config : GenericRateLimiterConfig) (limiter : GenericRateLimiter Id)

def tryNext (id : Id) (now : Nat) :
    Except String (Bool × GenericRateLimiter Id) := do
  let limiter ← limiter.refill config now
  match limiter.buckets id with
  | some 0 => .ok (false, limiter)
  | some (balance + 1) => .ok (true, limiter.setBucket id (some balance) limiter.refillSchedule)
  | none => .ok (true, limiter.setBucket id (some (config.limit - 1)) (limiter.refillSchedule ++ [(now, id)]))

def step (call : Id × Nat) :
    Except String (Bool × GenericRateLimiter Id) := limiter.tryNext config call.1 call.2

end

/-- The schedule is in the order of time and has one entry for each bucket. -/
structure Scheduled (limiter : GenericRateLimiter Id) (now : Nat) : Prop where
  sorted : limiter.refillSchedule.Pairwise fun entry later => entry.1 ≤ later.1
  past : ∀ entry ∈ limiter.refillSchedule, entry.1 ≤ now
  once : ∀ id, (limiter.refillSchedule.map Prod.snd).count id = if (limiter.buckets id).isSome then 1 else 0

namespace Scheduled

variable (hs : limiter.Scheduled now)
include hs

theorem notMem (hb : limiter.buckets id = none) (time : Nat) : (time, id) ∉ limiter.refillSchedule := by
  intro hmem
  have hc := hs.once id
  rw [hb] at hc
  exact count_eq_zero.1 hc (mem_map_of_mem hmem)

theorem pop (hsc : limiter.refillSchedule = (last, id) :: rest) : (limiter.setBucket id none rest).Scheduled now where
  sorted := (hsc ▸ hs.sorted).of_cons
  past entry hmem := hs.past entry (hsc ▸ mem_cons_of_mem _ hmem)
  once other := by
    have hc := hs.once other
    rw [hsc, map_cons, count_cons] at hc
    by_cases heq : other = id
    · subst heq
      simp only [setBucket, Function.update_self, BEq.rfl, if_true] at hc ⊢
      split_ifs at hc
      simp_all
    · simpa [setBucket, heq, Ne.symm heq] using hc

theorem push (hb : limiter.buckets id = none) (balance : Nat) :
    (limiter.setBucket id (some balance) (limiter.refillSchedule ++ [(now, id)])).Scheduled now where
  sorted := pairwise_append.2 ⟨hs.sorted, pairwise_singleton _ _, by simpa using fun time id => hs.past (time, id)⟩
  past := by simpa [setBucket, or_imp, forall_and] using fun time id => hs.past (time, id)
  once other := by
    have hc := hs.once other
    by_cases heq : other = id
    · simpa [setBucket, heq, hb] using hc
    · simpa [setBucket, heq, Ne.symm heq, count_singleton] using hc

theorem refillBucket (hsc : limiter.refillSchedule = (last, id) :: rest) (balance : Nat) :
    (limiter.refillBucket config id now last balance rest).Scheduled now := by
  unfold GenericRateLimiter.refillBucket
  dsimp only
  split_ifs
  · simpa [setBucket] using (hs.pop hsc).push (Function.update_self ..) _
  · exact hs.pop hsc

/-- The loop ends when no bucket is due; a bucket that is due is there. -/
theorem refillRound_cases (config : GenericRateLimiterConfig) :
    (limiter.refillRound config now = .ok none ∧
      ∀ e ∈ limiter.refillSchedule, now < e.1 + config.interval) ∨
    ∃ last id balance rest, limiter.refillSchedule = (last, id) :: rest ∧ limiter.buckets id = some balance ∧
      limiter.refillRound config now = .ok (some (limiter.refillBucket config id now last balance rest)) := by
  have hpos := config.interval_pos
  cases hsc : limiter.refillSchedule with
  | nil => simp [refillRound, hsc]
  | cons e rest =>
    obtain ⟨last, id⟩ := e
    have hmem : (last, id) ∈ limiter.refillSchedule := by simp [hsc]
    by_cases hd : config.interval ≤ now - last
    · obtain ⟨balance, hb⟩ := Option.ne_none_iff_exists'.1 fun hb => hs.notMem hb last hmem
      exact .inr ⟨last, id, balance, rest, rfl, hb, by simp [refillRound, hsc, hd, hb]⟩
    refine .inl ⟨by simp [refillRound, hsc, hd], fun e hin => ?_⟩
    have hl : last ≤ e.1 := by
      rcases mem_cons.1 hin with rfl | hin
      · exact le_rfl
      · exact (pairwise_cons.1 (hsc ▸ hs.sorted)).1 e hin
    omega

end Scheduled

/-- The calls of an id since a time cost what the id has used and has left, beyond its limit. -/
structure Credit (config : GenericRateLimiterConfig) (limiter : GenericRateLimiter Id) (id : Id)
    (start now granted : Nat) : Prop where
  full : limiter.buckets id = none → granted = 0 ∨ granted * config.interval + start ≤ now
  tracked : ∀ balance last, limiter.buckets id = some balance → (last, id) ∈ limiter.refillSchedule →
    balance < config.limit ∧
      (granted = 0 ∨ (granted + balance) * config.interval + start ≤ config.limit * config.interval + last)

theorem Credit.frame (hc : limiter.Credit config id start now granted) (hne : id ≠ other) (bucket : Option Nat)
    {schedule : List (Nat × Id)} (hsc : ∀ last, (last, id) ∈ schedule → (last, id) ∈ limiter.refillSchedule) :
    (limiter.setBucket other bucket schedule).Credit config id start now granted where
  full hb := hc.full (by simpa [setBucket, hne] using hb)
  tracked balance last hb hmem := hc.tracked balance last (by simpa [setBucket, hne] using hb) (hsc last hmem)

/-- With a whole number of microseconds for a token, none comes early. -/
theorem newTokens_le (hm : 1000 ∣ config.interval) (elapsed : Nat) :
    config.newTokens elapsed * config.interval ≤ elapsed := by
  obtain ⟨micros, heq⟩ := hm
  have hpos := config.interval_pos
  unfold GenericRateLimiterConfig.newTokens
  rw [heq, Nat.mul_div_cancel_left _ (by decide), Nat.div_div_eq_div_mul, if_neg (by omega)]
  exact (Nat.mul_le_mul_right _ (Nat.min_le_left _ _)).trans (Nat.div_mul_le_self _ _)

theorem Credit.refillBucket (hc : limiter.Credit config other start now granted) (hs : limiter.Scheduled now)
    (hm : 1000 ∣ config.interval) (hsc : limiter.refillSchedule = (last, id) :: rest)
    (hb : limiter.buckets id = some balance) :
    (limiter.refillBucket config id now last balance rest).Credit config other start now granted := by
  unfold GenericRateLimiter.refillBucket
  dsimp only
  by_cases heq : other = id
  · subst heq
    have hmem : (last, other) ∈ limiter.refillSchedule := by simp [hsc]
    have hu := (hc.tracked balance last hb hmem).2
    have hp := hs.past _ hmem
    have ht := newTokens_le hm (now - last)
    have hmi := Nat.min_le_left (balance + config.newTokens (now - last)) u32Max
    generalize min (balance + config.newTokens (now - last)) u32Max = new at *
    generalize config.newTokens (now - last) = tokens at *
    have hn : new * config.interval + last ≤ balance * config.interval + now := by
      have := Nat.mul_le_mul_right config.interval hmi
      rw [Nat.add_mul] at this
      dsimp only at hp
      omega
    split_ifs with hl
    · refine ⟨by simp [setBucket], fun balance time hba hin => ?_⟩
      have hnot : ∀ time, (time, other) ∉ rest := (hs.pop hsc).notMem (Function.update_self ..)
      obtain rfl : time = now := by simpa [setBucket, hnot] using hin
      obtain rfl : new = balance := by simpa [setBucket] using hba
      exact ⟨hl, hu.imp_right fun hle => by linarith⟩
    · refine ⟨fun _ => hu.imp_right fun hle => ?_, by simp [setBucket]⟩
      have := Nat.mul_le_mul_right config.interval (Nat.le_of_not_lt hl)
      linarith
  · have hr : ∀ time, (time, other) ∈ rest → (time, other) ∈ limiter.refillSchedule := by simp +contextual [hsc]
    split_ifs
    · exact hc.frame heq _ (by simpa [heq] using hr)
    · exact hc.frame heq _ hr

/-- Behind the loop no bucket is due. -/
theorem Scheduled.refill (hs : limiter.Scheduled now) (hm : 1000 ∣ config.interval) :
    ∃ next, limiter.refill config now = .ok next ∧ next.Scheduled now ∧
      (∀ e ∈ next.refillSchedule, now < e.1 + config.interval) ∧
      ∀ id start granted, limiter.Credit config id start now granted → next.Credit config id start now granted := by
  induction hd : limiter.due config now using Nat.strongRecOn generalizing limiter with
  | ind due ih =>
    rw [GenericRateLimiter.refill]
    rcases hs.refillRound_cases config with ⟨hr, hn⟩ | ⟨last, id, balance, rest, hsc, hb, hr⟩
    · rw [hr]
      exact ⟨limiter, rfl, hs, hn, fun _ _ _ hc => hc⟩
    · obtain ⟨next, hne, hs', hn, hcr⟩ := ih _ (hd ▸ due_of_refillRound hr) (hs.refillBucket hsc _) rfl
      rw [hr]
      exact ⟨next, hne, hs', hn, fun _ _ _ hc => hcr _ _ _ (hc.refillBucket hs hm hsc hb)⟩

/-- A call refills what is due and takes a token of its id, if there is one. -/
theorem Scheduled.tryNext (hs : limiter.Scheduled time) (hle : time ≤ now) (hm : 1000 ∣ config.interval) (id : Id) :
    ∃ ok next, limiter.tryNext config id now = .ok (ok, next) ∧ next.Scheduled now ∧
      ∀ other start granted, limiter.Credit config other start time granted → next.Credit config other start now
        (granted + if ok ∧ other = id ∧ start ≤ now then 1 else 0) := by
  have hs : limiter.Scheduled now := { hs with past := fun e hmem => (hs.past e hmem).trans hle }
  obtain ⟨next, hn, hs, hno, hcr⟩ := hs.refill hm
  have hcr : ∀ {other start granted}, limiter.Credit config other start time granted →
      next.Credit config other start now granted :=
    fun hc => hcr _ _ _ ⟨fun hb => (hc.full hb).imp_right fun hle' => hle'.trans hle, hc.tracked⟩
  have hpos := config.limit_pos
  simp only [GenericRateLimiter.tryNext, hn, bind, Except.bind]
  rcases hb : next.buckets id with _ | _ | balance
  · refine ⟨_, _, rfl, hs.push hb _, fun other start granted hc => ?_⟩
    by_cases heq : other = id
    · subst heq
      refine ⟨by simp [setBucket], fun new last hne hin => ?_⟩
      obtain rfl : last = now := by simpa [setBucket, hs.notMem hb] using hin
      obtain rfl : config.limit - 1 = new := by simpa [setBucket] using hne
      refine ⟨by omega, ?_⟩
      have hf := (hcr hc).full hb
      by_cases hge : start ≤ last
      · rw [if_pos ⟨rfl, rfl, hge⟩, show granted + 1 + (config.limit - 1) = granted + config.limit by omega]
        rcases hf with rfl | hf <;> exact .inr (by linarith)
      · simp only [hge, and_false, if_false]
        exact .inl (by omega)
    · simpa [heq] using (hcr hc).frame heq _ (by simp [heq])
  · exact ⟨_, _, rfl, hs, fun other start granted hc => by simpa using hcr hc⟩
  refine ⟨_, _, rfl, { hs with once := fun other => ?_ }, fun other start granted hc => ?_⟩
  · by_cases heq : other = id <;> simpa [setBucket, heq, hb] using hs.once other
  by_cases heq : other = id
  · subst heq
    refine ⟨by simp [setBucket], fun new last hne hin => ?_⟩
    obtain rfl : balance = new := by simpa [setBucket] using hne
    have hna := hno _ hin
    obtain ⟨hl, hu⟩ := (hcr hc).tracked _ last hb hin
    refine ⟨by omega, ?_⟩
    by_cases hge : start ≤ now
    · rw [if_pos ⟨rfl, rfl, hge⟩]
      have := Nat.mul_le_mul_right config.interval hl
      rcases hu with rfl | hu <;> exact .inr (by dsimp only at hna; linarith)
    · simp only [hge, and_false, if_false]
      exact hu.imp_right fun _ => by linarith
  · simpa [heq] using (hcr hc).frame heq _ fun _ hin => hin

/-- The calls of an id in a time window that are granted. -/
def grantedIn (id : Id) (start width : Nat) (calls : List (Id × Nat)) (answers : List Bool) : Nat :=
  (calls.zip answers).countP fun (call, ok) => ok ∧ id = call.1 ∧ start ≤ call.2 ∧ call.2 ≤ start + width

theorem Credit.le (hc : limiter.Credit config id start now granted) (hs : limiter.Scheduled now) {width : Nat}
    (hle : now ≤ start + width) : granted ≤ config.limit + width / config.interval := by
  have hpos := config.interval_pos
  suffices hsu : granted = 0 ∨ granted * config.interval ≤ config.limit * config.interval + width by
    rcases hsu with rfl | hsu
    · exact Nat.zero_le _
    · rw [← Nat.mul_add_div hpos, Nat.le_div_iff_mul_le hpos]
      linarith
  cases hb : limiter.buckets id with
  | none => exact (hc.full hb).imp_right fun _ => by linarith [Nat.zero_le (config.limit * config.interval)]
  | some balance =>
    have hco : 0 < (limiter.refillSchedule.map Prod.snd).count id := by simp [hs.once, hb]
    obtain ⟨⟨last, id⟩, hmem, rfl⟩ := mem_map.1 (count_pos_iff.1 hco)
    have hp := hs.past _ hmem
    exact (hc.tracked balance last hb hmem).2.imp_right fun _ => by nlinarith

theorem Scheduled.run (hm : 1000 ∣ config.interval) (calls : List (Id × Nat)) (hs : limiter.Scheduled time)
    (hall : ∀ call ∈ calls, time ≤ call.2) (hso : calls.Pairwise fun call later => call.2 ≤ later.2) :
    ∃ ans last time', Transition.run (step config) limiter calls = .ok (ans, last) ∧ last.Scheduled time' ∧
      ∀ id start width granted, (time ≤ start + width → limiter.Credit config id start time granted) →
        granted ≤ config.limit + width / config.interval →
        granted + grantedIn id start width calls ans ≤ config.limit + width / config.interval := by
  induction calls generalizing limiter time with
  | nil => exact ⟨[], limiter, time, rfl, hs, fun _ _ _ _ _ hle => by simpa [grantedIn] using hle⟩
  | cons call calls ih =>
    obtain ⟨ok, next, hok, hn, hcr⟩ := hs.tryNext (hall call mem_cons_self) hm call.1
    obtain ⟨hf, hso⟩ := pairwise_cons.1 hso
    obtain ⟨ans, last, time', hrun, hl, hco⟩ := ih hn hf hso
    refine ⟨ok :: ans, last, time', by simp [Transition.run, step, hok, hrun], hl, ?_⟩
    intro id start width granted hc hle
    have hin := hall call mem_cons_self
    rcases Nat.lt_or_ge (start + width) call.2 with hla | hw
    · simpa [grantedIn, Nat.not_le.2 hla] using hco id start width granted (fun hlt => by omega) hle
    · have hc' := hcr id start granted (hc (by omega))
      have := hco id start width _ (fun _ => hc') (hc'.le hn hw)
      simpa [grantedIn, countP_cons, hw, Nat.add_assoc, Nat.add_comm] using this

/-- **The rate limit.** With an interval of a whole number of microseconds and calls in the order of time, no call
panics, the schedule has one entry for each bucket in the order of time, and in every time window at most as many calls
of an id are granted as the limit and the intervals in the window. -/
theorem granted_le (hm : 1000 ∣ config.interval) (calls : List (Id × Nat))
    (hso : calls.Pairwise fun call later => call.2 ≤ later.2) :
    ∃ answers last time, run (step config) new calls = .ok (answers, last) ∧ last.Scheduled time ∧
      ∀ id start width, grantedIn id start width calls answers ≤ config.limit + width / config.interval := by
  have hn : (new : GenericRateLimiter Id).Scheduled 0 := ⟨.nil, by simp [new], by simp [new]⟩
  obtain ⟨answers, last, time, hrun, hl, hc⟩ := hn.run hm calls (fun _ _ => Nat.zero_le _) hso
  refine ⟨answers, last, time, hrun, hl, fun id start width => ?_⟩
  simpa using hc id start width 0 (fun _ => ⟨fun _ => .inl rfl, by simp [new]⟩) (Nat.zero_le _)

/-- A token in a microsecond, and no more than one. -/
def oneToken : GenericRateLimiterConfig :=
  ⟨1, 1000, Nat.one_pos, Nat.one_lt_two_pow (Nat.succ_ne_zero 31), Nat.succ_pos 999⟩

theorem granted_le_twice : ([(0, 0), (0, 5)] : List (Nat × Nat)).Pairwise (fun call later => call.2 ≤ later.2) ∧
    ∃ answers last time, run (step oneToken) new [(0, 0), (0, 5)] = .ok (answers, last) ∧ last.Scheduled time ∧
      ∀ id start width, grantedIn id start width [(0, 0), (0, 5)] answers ≤ 1 + width / 1000 :=
  ⟨by decide, granted_le (by decide) [(0, 0), (0, 5)] (by decide)⟩

end GenericRateLimiter
end RustLibp2p.Relay
