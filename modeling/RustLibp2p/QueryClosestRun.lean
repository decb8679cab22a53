import RustLibp2p.QueryClosest
import RustLibp2p.Transition

/-! What holds of a query towards the closest peers over all its calls. -/

namespace RustLibp2p.Kad
open Transition List OrdMap

def PeersIterState.yielded {P : Type} : PeersIterState P → Option P
  | .waiting peer => peer
  | .waitingAtCapacity => none
  | .finished => none

theorem PeersIterState.yielded_eq_some_iff {P : Type} {st : PeersIterState P} {peer : P} :
    st.yielded = some peer ↔ st = .waiting (some peer) := by
  cases st <;> simp [yielded]

namespace ClosestPeersIter

variable {P : Type}

/-! ### What a call can do -/

/-- How `next` answers when its loop has ended. -/
inductive Answered (it it' : ClosestPeersIter P) : ScanEnd P → PeersIterState P → Prop where
  | yielded (peer : P) (hstate : it'.state = it.state) : Answered it it' (.yielded peer) (.waiting (some peer))
  | atCapacity (hstate : it'.state = it.state) : Answered it it' .atCapacity .waitingAtCapacity
  | enough (hstate : it'.state = .finished) : Answered it it' .enoughResults .finished
  | awaiting (hstate : it'.state = it.state) (hwaiting : 0 < it'.numWaiting) :
      Answered it it' .exhausted (.waiting none)
  | exhausted (hstate : it'.state = .finished) (hwaiting : it'.numWaiting = 0) : Answered it it' .exhausted .finished

inductive NextCase (it : ClosestPeersIter P) (now : Instant) : PeersIterState P × ClosestPeersIter P → Prop where
  | done (hstate : it.state = .finished) : NextCase it now (.finished, it)
  | scanned {scanEnd : ScanEnd P} {answer : PeersIterState P} {it' : ClosestPeersIter P} (hstate : it.state ≠ .finished)
      (hscan : Scanned it.config now it.atCapacity (some 0) it.numWaiting it.closestPeers.entries
        (it'.closestPeers.entries, it'.numWaiting, scanEnd))
      (hconfig : it'.config = it.config) (htarget : it'.target = it.target)
      (hanswer : Answered it it' scanEnd answer) : NextCase it now (answer, it')

theorem nextCase (it : ClosestPeersIter P) (now : Instant) : NextCase it now (it.next now) := by
  rw [next]
  split_ifs with hs
  · exact .done hs
  have hsc := scanned it.config now it.atCapacity (some 0) it.numWaiting it.closestPeers.entries
  simp only
  split
  next peer he => exact .scanned hs (he ▸ hsc) rfl rfl (.yielded peer rfl)
  next he => exact .scanned hs (he ▸ hsc) rfl rfl (.atCapacity rfl)
  next he => exact .scanned hs (he ▸ hsc) rfl rfl (.enough rfl)
  next he =>
    split_ifs with hw
    · exact .scanned hs (he ▸ hsc) rfl rfl (.awaiting rfl hw)
    · exact .scanned hs (he ▸ hsc) rfl rfl (.exhausted rfl (Nat.eq_zero_of_not_pos hw))

variable {it it' : ClosestPeersIter P} {peer p : P} {result : PeerState} {closerPeers : List P}
  {outcome : PeersIterState P × ClosestPeersIter P} {now : Instant}

theorem mem_waiting :
    p ∈ it.waiting ↔ ∃ dist timeout, (dist, ⟨p, .waiting timeout⟩) ∈ it.closestPeers.entries := by
  rw [waiting, mem_filterMap]
  constructor
  · rintro ⟨⟨dist, _, st⟩, hmem, hk⟩
    cases st with
    | waiting timeout =>
      cases hk
      exact ⟨dist, timeout, hmem⟩
    | _ => cases hk
  · rintro ⟨dist, timeout, hmem⟩
    exact ⟨_, hmem, rfl⟩

theorem length_waiting (it : ClosestPeersIter P) : it.waiting.length = waitingCount it.closestPeers.entries := by
  rw [waiting, length_filterMap_eq_countP, waitingCount]
  congr 1
  funext entry
  cases entry.2.state <;> rfl

theorem length_filterMap_succeeded (entries : List (Distance × Peer P)) :
    (entries.filterMap fun e => if e.2.state = .succeeded then some e.2.key else none).length =
      succeededCount entries := by
  rw [length_filterMap_eq_countP, succeededCount]
  congr 1
  funext e
  cases e.2.state <;> rfl

theorem numWaiting_lt_of_not_atCapacity (hc : it.atCapacity = false) :
    it.numWaiting < max it.config.parallelism it.config.numResults := by
  rw [atCapacity] at hc
  cases hs : it.state with
  | iterating =>
    simp only [hs, decide_eq_false_iff_not, Nat.not_le] at hc
    exact hc.trans_le (Nat.le_max_left _ _)
  | stalled =>
    simp only [hs, decide_eq_false_iff_not, Nat.not_le] at hc
    rwa [max_comm]
  | finished => simp only [hs, reduceCtorEq] at hc

section

variable (hnext : NextCase it now outcome)
include hnext

theorem NextCase.fixed : outcome.2.config = it.config ∧ outcome.2.target = it.target := by
  cases hnext with
  | done => exact ⟨rfl, rfl⟩
  | scanned hs hsc hc ht => exact ⟨hc, ht⟩

theorem NextCase.finished (hs : it.state = .finished) : outcome.2.state = .finished := by
  cases hnext with
  | done => exact hs
  | scanned hu => exact absurd hs hu

theorem NextCase.waiting (hp : p ∈ outcome.2.waiting) : p ∈ it.waiting ∨ outcome.1 = .waiting (some p) := by
  cases hnext with
  | done => exact .inl hp
  | scanned hs hsc hc ht ha =>
    obtain ⟨dist, timeout, hmem⟩ := mem_waiting.1 hp
    rcases hsc.waiting hmem with ho | hy
    · exact .inl (mem_waiting.2 ⟨dist, timeout, ho⟩)
    · cases hy
      cases ha
      exact .inr rfl

theorem NextCase.notContactedCount_lt (hy : outcome.1 = .waiting (some p)) :
    notContactedCount outcome.2.closestPeers.entries < notContactedCount it.closestPeers.entries := by
  cases hnext with
  | done => cases hy
  | scanned hs hsc hc ht ha =>
    cases hy
    cases ha
    exact hsc.notContactedCount_lt rfl

end

variable [AsKeyBytes P]

/-- The answer of a peer has been taken: its entry got a final state, nothing else changed. -/
structure Delivered (it it' : ClosestPeersIter P) (peer : P) (result : PeerState) : Prop where
  config_eq : it'.config = it.config
  target_eq : it'.target = it.target
  state_eq : it'.state = it.state
  entry : ∃ before key state after, (state.isWaiting ∨ state = .unresponsive) ∧
    it.closestPeers.entries = before ++ ((keyBytes peer).distance it.target, ⟨key, state⟩) :: after ∧
    it'.closestPeers.entries = before ++ ((keyBytes peer).distance it.target, ⟨key, result⟩) :: after ∧
    it'.numWaiting = if state.isWaiting then wrappingPred it.numWaiting else it.numWaiting

theorem delivered (hd : it.deliver peer result = some it') : Delivered it it' peer result := by
  simp only [deliver] at hd
  split at hd
  next => cases hd
  next e hg =>
    obtain ⟨key, state⟩ := e
    obtain ⟨pre, after, ho, hn⟩ := adjust_split hg fun e => { e with state := result }
    cases state with
    | waiting =>
      cases hd
      exact ⟨rfl, rfl, rfl, pre, key, _, after, .inl rfl, ho, hn, rfl⟩
    | unresponsive =>
      cases hd
      exact ⟨rfl, rfl, rfl, pre, key, _, after, .inr rfl, ho, hn, rfl⟩
    | notContacted | failed | succeeded => cases hd

/-- Peers have been reported: some of them are known now, not contacted, at their distance from the
target. -/
structure Learned (it it' : ClosestPeersIter P) (closerPeers : List P) : Prop where
  config_eq : it'.config = it.config
  target_eq : it'.target = it.target
  numWaiting_eq : it'.numWaiting = it.numWaiting
  finished_iff : it'.state = .finished ↔ it.state = .finished
  added : ∃ added, it'.closestPeers.entries.Perm (added ++ it.closestPeers.entries) ∧
    ∀ entry ∈ added, entry.1 = it.target.distance (keyBytes entry.2.key) ∧
      entry.2.state = .notContacted ∧ entry.2.key ∈ closerPeers

theorem incorporate_perm (tgt : KeyBytes) (curRange : Distance) (closerPeers : List P)
    (acc : OrdMap Distance (Peer P) × Bool) :
    ∃ added, (closerPeers.foldl (incorporate tgt curRange) acc).1.entries.Perm (added ++ acc.1.entries) ∧
      ∀ e ∈ added, e.1 = tgt.distance (keyBytes e.2.key) ∧
        e.2.state = .notContacted ∧ e.2.key ∈ closerPeers := by
  induction closerPeers generalizing acc with
  | nil => exact ⟨[], .refl _, by simp⟩
  | cons key keys ih =>
    obtain ⟨added, hp, ha⟩ := ih (incorporate tgt curRange acc key)
    have ha' : ∀ e ∈ added, e.1 = tgt.distance (keyBytes e.2.key) ∧
        e.2.state = .notContacted ∧ e.2.key ∈ key :: keys := fun e he =>
      have ⟨hd, hs, hk⟩ := ha e he
      ⟨hd, hs, mem_cons_of_mem _ hk⟩
    rw [foldl_cons]
    cases hg : acc.1.get? (tgt.distance (keyBytes key)) with
    | some =>
      have hsa : incorporate tgt curRange acc key = acc := by simp [incorporate, hg]
      rw [hsa] at hp ⊢
      exact ⟨added, hp, ha'⟩
    | none =>
      have hi : (incorporate tgt curRange acc key).1 =
          acc.1.insert (tgt.distance (keyBytes key)) ⟨key, .notContacted⟩ := by
        simp [incorporate, hg]
      rw [hi] at hp
      refine ⟨added ++ [(tgt.distance (keyBytes key), ⟨key, .notContacted⟩)], ?_, ?_⟩
      · rw [append_assoc, singleton_append]
        exact hp.trans ((perm_insert hg _).append_left added)
      · exact forall_mem_append.2 ⟨ha', by simp⟩

variable {config : ClosestPeersIterConfig}

theorem State.advance_eq_finished {progress : Bool} {st : State} :
    st.advance config progress = .finished ↔ st = .finished := by
  cases st with
  | iterating noProgress | stalled =>
    simp only [State.advance]
    split_ifs <;> simp
  | finished => exact Iff.rfl

inductive ReportCase (it : ClosestPeersIter P) (peer : P) (result : PeerState) (closerPeers : List P) :
    Bool × ClosestPeersIter P → Prop where
  | ignored (hignored : it.state = .finished ∨ it.deliver peer result = none) :
      ReportCase it peer result closerPeers (false, it)
  | taken {it₁ it' : ClosestPeersIter P} (hstate : it.state ≠ .finished)
      (hdelivered : Delivered it it₁ peer result) (hlearned : Learned it₁ it' closerPeers) :
      ReportCase it peer result closerPeers (true, it')

section

variable (it : ClosestPeersIter P) (peer : P)

theorem onSuccess_case (closerPeers : List P) :
    ReportCase it peer .succeeded closerPeers (it.onSuccess peer closerPeers) := by
  rw [onSuccess]
  split_ifs with hs
  · exact .ignored (.inl hs)
  cases hd : it.deliver peer .succeeded with
  | none => exact .ignored (.inr hd)
  | some =>
    exact .taken hs (delivered hd) ⟨rfl, rfl, rfl, State.advance_eq_finished, incorporate_perm _ _ closerPeers _⟩

theorem onFailure_case : ReportCase it peer .failed [] (it.onFailure peer) := by
  rw [onFailure]
  split_ifs with hs
  · exact .ignored (.inl hs)
  · cases hd : it.deliver peer .failed with
    | none => exact .ignored (.inr hd)
    | some => exact .taken hs (delivered hd) ⟨rfl, rfl, rfl, Iff.rfl, [], .refl _, by simp⟩

def peers : List (Distance × P) := it.closestPeers.entries.map fun entry => (entry.1, entry.2.key)

/-- Every known peer is kept under its distance from the target. -/
def Coherent : Prop := ∀ entry ∈ it.peers, entry.1 = it.target.distance (keyBytes entry.2)

def Contacted : Prop := ∃ distance state, state ≠ .notContacted ∧ (distance, ⟨peer, state⟩) ∈ it.closestPeers.entries

/-- The results are found: nothing more is expected of the peers closer than the last of them. -/
def Optimal : Prop :=
  ∃ before distance key after, it.closestPeers.entries = before ++ (distance, ⟨key, .succeeded⟩) :: after ∧
    (∀ entry ∈ before, entry.2.state.isFinal) ∧ succeededCount before + 1 = it.config.numResults

end

structure Inv (it : ClosestPeersIter P) : Prop where
  coherent : it.Coherent
  numWaiting_eq : it.numWaiting = waitingCount it.closestPeers.entries
  numWaiting_le : it.numWaiting ≤ max it.config.parallelism it.config.numResults
  optimal : it.state = .finished → it.config.numResults ≤ succeededCount it.closestPeers.entries → it.Optimal

theorem inv_withConfig (config : ClosestPeersIterConfig) (tgt : KeyBytes) (known : List P) :
    (withConfig config tgt known).Inv := by
  have hk : ∀ e ∈ (withConfig config tgt known).closestPeers.entries,
      e.1 = tgt.distance (keyBytes e.2.key) ∧ e.2.state = .notContacted := by
    intro e he
    obtain ⟨key, -, rfl⟩ := mem_map.1 (mem_of_mem_take (mem_ofList he))
    exact ⟨KeyBytes.distance_comm _ _, rfl⟩
  refine ⟨?_, ?_, Nat.zero_le _, nofun⟩
  · exact forall_mem_map.2 fun e he => (hk e he).1
  · refine (countP_eq_zero.2 fun e he => ?_).symm
    rw [(hk e he).2]
    exact Bool.false_ne_true

theorem Delivered.coherent (hd : Delivered it it' peer result) (hc : it.Coherent) : it'.Coherent := by
  obtain ⟨_, _, _, _, -, ho, hn, -⟩ := hd.entry
  have hp : it'.peers = it.peers := by simp [peers, ho, hn]
  rw [Coherent, hp, hd.target_eq]
  exact hc

theorem Learned.coherent (hl : Learned it it' closerPeers) (hc : it.Coherent) : it'.Coherent := by
  obtain ⟨added, hp, ha⟩ := hl.added
  refine forall_mem_map.2 fun e he => ?_
  rw [hl.target_eq]
  rcases mem_append.1 (hp.mem_iff.1 he) with hn | ho
  · exact (ha e hn).1
  · exact forall_mem_map.1 hc e ho

theorem Delivered.inv (hd : Delivered it it' peer result) (hr : result.isFinal)
    (hs : it.state ≠ .finished) (hi : it.Inv) : it'.Inv := by
  obtain ⟨pre, key, st, after, _, ho, hn, hw⟩ := hd.entry
  have hc : ∀ st', waitingCount (pre ++ ((keyBytes peer).distance it.target, ⟨key, st'⟩) :: after) =
      waitingCount pre + waitingCount after + st'.isWaiting.toNat := by
    intro st'
    rw [waitingCount, countP_append, ← waitingCount, ← waitingCount, waitingCount_cons, Nat.add_assoc]
  have hr' : result.isWaiting = false := by cases result <;> first | rfl | cases hr
  have hnu : it'.numWaiting = waitingCount pre + waitingCount after := by
    rw [hw, hi.numWaiting_eq, ho, hc]
    cases st.isWaiting with
    | false | true => rfl
  refine ⟨hd.coherent hi.coherent, ?_, ?_, ?_⟩
  · rw [hnu, hn, hc, hr']
    rfl
  · rw [hnu, hd.config_eq]
    refine Nat.le_trans ?_ hi.numWaiting_le
    rw [hi.numWaiting_eq, ho, hc]
    exact Nat.le_add_right _ _
  · intro hf
    exact absurd (hd.state_eq ▸ hf) hs

theorem Learned.inv (hl : Learned it it' closerPeers) (hs : it.state ≠ .finished) (hi : it.Inv) : it'.Inv := by
  obtain ⟨added, hp, ha⟩ := hl.added
  have hc : waitingCount it'.closestPeers.entries = waitingCount it.closestPeers.entries := by
    have hn : waitingCount added = 0 := by
      refine countP_eq_zero.2 fun e he => ?_
      rw [(ha e he).2.1]
      exact Bool.false_ne_true
    calc waitingCount it'.closestPeers.entries = waitingCount (added ++ it.closestPeers.entries) := hp.countP_eq _
      _ = waitingCount added + waitingCount it.closestPeers.entries := countP_append
      _ = waitingCount it.closestPeers.entries := by rw [hn, Nat.zero_add]
  refine ⟨hl.coherent hi.coherent, ?_, ?_, ?_⟩
  · rw [hl.numWaiting_eq, hc, hi.numWaiting_eq]
  · rw [hl.numWaiting_eq, hl.config_eq]
    exact hi.numWaiting_le
  · intro hf
    exact absurd (hl.finished_iff.1 hf) hs

section

variable {outcome : Bool × ClosestPeersIter P}

theorem ReportCase.notContactedCount_eq (hreo : ReportCase it peer result [] outcome) (hr : result.isFinal) :
    notContactedCount outcome.2.closestPeers.entries = notContactedCount it.closestPeers.entries := by
  cases hreo with
  | ignored => rfl
  | @taken it₁ it' hs hd hl =>
    obtain ⟨pre, key, st, after, hs, ho, hn, -⟩ := hd.entry
    obtain ⟨added, hp, ha⟩ := hl.added
    have hnil : added = [] := eq_nil_iff_forall_not_mem.2 fun e he =>
      not_mem_nil (ha e he).2.2
    have hc : ∀ {st : PeerState}, st ≠ .notContacted →
        notContactedCount (pre ++ ((keyBytes peer).distance it.target, ⟨key, st⟩) :: after) =
          notContactedCount pre + notContactedCount after := by
      intro st hs
      rw [notContactedCount, countP_append, countP_cons_of_neg (by simpa using hs)]
      rfl
    rw [hnil, nil_append, hn] at hp
    rw [notContactedCount, hp.countP_eq, ← notContactedCount, ho, hc, hc]
    · rintro rfl
      rcases hs with hs | hs <;> cases hs
    · rintro rfl
      cases hr

variable (hreo : ReportCase it peer result closerPeers outcome)
include hreo

theorem ReportCase.coherent (hc : it.Coherent) : outcome.2.Coherent := by
  cases hreo with
  | ignored => exact hc
  | taken hs hd hl => exact hl.coherent (hd.coherent hc)

theorem ReportCase.inv (hr : result.isFinal) (hi : it.Inv) : outcome.2.Inv := by
  cases hreo with
  | ignored => exact hi
  | taken hs hd hl =>
    exact hl.inv (hd.state_eq ▸ hs) (hd.inv hr hs hi)

theorem ReportCase.fixed : outcome.2.config = it.config ∧ outcome.2.target = it.target := by
  cases hreo with
  | ignored => exact ⟨rfl, rfl⟩
  | taken hs hd hl => exact ⟨hl.config_eq.trans hd.config_eq, hl.target_eq.trans hd.target_eq⟩

theorem ReportCase.finished_iff : outcome.2.state = .finished ↔ it.state = .finished := by
  cases hreo with
  | ignored => exact Iff.rfl
  | taken hs hd hl => rw [hl.finished_iff, hd.state_eq]

theorem ReportCase.contacted (hr : result.isFinal) (hc : it.Contacted p) : outcome.2.Contacted p := by
  cases hreo with
  | ignored => exact hc
  | taken hs hd hl =>
    obtain ⟨dist, st, hs, hmem⟩ := hc
    obtain ⟨added, hp, -⟩ := hl.added
    obtain ⟨pre, key, _, after, -, ho, hn, -⟩ := hd.entry
    rw [hn] at hp
    rw [ho] at hmem
    have hk : ∀ e ∈ pre ++ (_, ⟨key, result⟩) :: after, e ∈ _ := fun e he =>
      hp.mem_iff.2 (mem_append_right added he)
    rcases mem_append.1 hmem with hmem | hmem
    · exact ⟨dist, st, hs, hk _ (mem_append_left _ hmem)⟩
    rcases mem_cons.1 hmem with heq | hmem
    · cases heq
      refine ⟨_, result, ?_, hk _ (mem_append_right _ mem_cons_self)⟩
      rintro rfl
      cases hr
    · exact ⟨dist, st, hs, hk _ (mem_append_right _ (mem_cons_of_mem _ hmem))⟩

theorem ReportCase.waiting (hr : result.isFinal) (hc : it.Coherent)
    (hp : p ∈ outcome.2.waiting) : p ∈ it.waiting ∧ (it.state ≠ .finished → p ≠ peer) := by
  have hd : ∀ {dist : Distance} {timeout : Instant}, (dist, ⟨p, .waiting timeout⟩) ∈ it.closestPeers.entries →
      dist = (keyBytes p).distance it.target := fun hmem =>
    (forall_mem_map.1 hc _ hmem).trans (KeyBytes.distance_comm _ _)
  obtain ⟨dist, timeout, hmem⟩ := mem_waiting.1 hp
  cases hreo with
  | ignored hi =>
    refine ⟨hp, fun hs heq => ?_⟩
    have hg := get?_eq_some_iff.2 (hd hmem ▸ hmem)
    have hde := hi.resolve_left hs
    simp only [deliver, ← heq, hg, reduceCtorEq] at hde
  | @taken it₁ it' hs hdi hl =>
    obtain ⟨_, key, _, _, -, ho, hn, -⟩ := hdi.entry
    obtain ⟨added, hpe, ha⟩ := hl.added
    have hm₁ : (dist, ⟨p, .waiting timeout⟩) ∈ it₁.closestPeers.entries := by
      rcases mem_append.1 (hpe.mem_iff.1 hmem) with hmem | hmem
      · cases (ha _ hmem).2.1
      · exact hmem
    have hne : dist ≠ (keyBytes peer).distance it.target := by
      rintro rfl
      have hre : ((keyBytes peer).distance it.target, ⟨key, result⟩) ∈ it₁.closestPeers.entries :=
        hn ▸ mem_append_right _ mem_cons_self
      cases eq_of_key_eq hm₁ hre rfl
      cases hr
    have hmem : (dist, ⟨p, .waiting timeout⟩) ∈ it.closestPeers.entries := by
      rw [hn, mem_append, mem_cons] at hm₁
      rw [ho, mem_append, mem_cons]
      exact hm₁.imp_right (.inr ∘ fun h => h.resolve_left fun heq => hne (Prod.mk.inj heq).1)
    exact ⟨mem_waiting.2 ⟨dist, timeout, hmem⟩, fun _ heq => hne (heq ▸ hd hmem)⟩

end

section

variable (hnext : NextCase it now outcome)
include hnext

theorem NextCase.coherent (hc : it.Coherent) : outcome.2.Coherent := by
  cases hnext with
  | done => exact hc
  | scanned hs hsc hco ht =>
    rw [Coherent, peers, hsc.peers, ht]
    exact hc

theorem NextCase.inv (hi : it.Inv) : outcome.2.Inv := by
  have hc := hnext.coherent hi.coherent
  cases hnext with
  | done => exact hi
  | @scanned scanEnd ans it' hs hsc hco ht ha =>
    have hcu : it.numWaiting = 0 + waitingCount it.closestPeers.entries := by rw [Nat.zero_add, hi.numWaiting_eq]
    have hn : it'.numWaiting = waitingCount it'.closestPeers.entries :=
      (hsc.numWaiting_eq hcu).trans (Nat.zero_add _)
    refine ⟨hc, hn, ?_, ?_⟩
    · rw [hco]
      refine (hsc.numWaiting_le hcu).trans ?_
      cases hca : it.atCapacity with
      | true => exact hi.numWaiting_le
      | false => exact numWaiting_lt_of_not_atCapacity hca
    · intro hf hr
      rw [hco] at hr
      cases ha with
      | yielded peer hsa | atCapacity hsa | awaiting hsa => exact absurd (hsa ▸ hf) hs
      | enough =>
        obtain ⟨_, pre, dist, key, after, hz, hsp, hfi, hfo⟩ := hsc.enough rfl
        cases hz
        refine ⟨pre, dist, key, after, hsp, hfi, ?_⟩
        rw [hco, ← hfo it.config.numResults_pos, Nat.zero_add]
      | exhausted hsa hw =>
        have hfe := hsc.exhausted rfl (hn ▸ hw) rfl it.config.numResults_pos
        rw [Nat.zero_add] at hfe
        exact absurd hr (Nat.not_le.2 hfe)

theorem NextCase.yielded (hy : outcome.1 = .waiting (some p))
    (hc : it.Coherent) : ¬it.Contacted p ∧ outcome.2.Contacted p := by
  cases hnext with
  | done => cases hy
  | scanned hs hsc hco ht ha =>
    cases hy
    cases ha
    obtain ⟨dist, ho, hn⟩ := hsc.yielded rfl
    refine ⟨?_, dist, _, by simp, hn⟩
    rintro ⟨_, _, hs, hmem⟩
    have hd := forall_mem_map.1 hc _ ho
    have hd' := forall_mem_map.1 hc _ hmem
    cases eq_of_key_eq ho hmem (hd.trans hd'.symm)
    exact hs rfl

omit [AsKeyBytes P] in
theorem NextCase.contacted (hc : it.Contacted p) : outcome.2.Contacted p := by
  cases hnext with
  | done => exact hc
  | scanned hs hsc =>
    obtain ⟨dist, _, hs, hmem⟩ := hc
    obtain ⟨st', hs', hm'⟩ := hsc.contacted hmem hs
    exact ⟨dist, st', hs', hm'⟩

end

theorem exec_kept (hi : it.Inv) (call : IterCall P) : (it.exec call).2.Inv ∧
    ((it.exec call).2.config = it.config ∧ (it.exec call).2.target = it.target) ∧
    ∀ p, it.Contacted p → (it.exec call).2.Contacted p := by
  cases call with
  | next now =>
    have hnext := nextCase it now
    exact ⟨hnext.inv hi, hnext.fixed, fun _ => hnext.contacted⟩
  | onSuccess peer closerPeers =>
    have hreo := onSuccess_case it peer closerPeers
    exact ⟨hreo.inv rfl hi, hreo.fixed, fun _ => hreo.contacted rfl⟩
  | onFailure peer =>
    have hreo := onFailure_case it peer
    exact ⟨hreo.inv rfl hi, hreo.fixed, fun _ => hreo.contacted rfl⟩

theorem succeeded_sorted (hc : it.Coherent) :
    it.succeeded.Pairwise fun p q => it.target.distance (keyBytes p) < it.target.distance (keyBytes q) := by
  rw [succeeded, pairwise_filterMap]
  refine it.closestPeers.sorted.imp_of_mem fun {x y} hx hy hlt p hp q hq => ?_
  have hk : ∀ {z : Distance × Peer P} {r : P}, z ∈ it.closestPeers.entries →
      (if z.2.state = .succeeded then some z.2.key else none) = some r →
      z.1 = it.target.distance (keyBytes r) := by
    intro z r hz hr
    obtain ⟨-, hr⟩ := Option.ite_none_right_eq_some.1 hr
    cases hr
    exact forall_mem_map.1 hc z hz
  rwa [← hk hx hp, ← hk hy hq]

theorem Optimal.isFinal_of_lt (ho : it.Optimal) (hc : it.Coherent)
    {q : P} (hq : q ∈ it.intoResult) {e : Distance × Peer P} (he : e ∈ it.closestPeers.entries)
    (hlt : e.1 < it.target.distance (keyBytes q)) : e.2.state.isFinal := by
  obtain ⟨pre, distance, key, _, hs, hf, hco⟩ := ho
  have hso := it.closestPeers.sorted
  rw [hs, pairwise_append, pairwise_cons] at hso
  have hp : ∀ z ∈ it.closestPeers.entries, z.1 = it.target.distance (keyBytes z.2.key) := forall_mem_map.1 hc
  have hr : it.intoResult = (pre.filterMap fun e =>
      if e.2.state = .succeeded then some e.2.key else none) ++ [key] := by
    rw [intoResult, succeeded, hs, filterMap_append, filterMap_cons, ← hco,
      ← length_filterMap_succeeded, take_length_add_append]
    rfl
  have hle : it.target.distance (keyBytes q) ≤ distance := by
    rw [hr] at hq
    rcases mem_append.1 hq with hq | hq
    · obtain ⟨z, hz, hk⟩ := mem_filterMap.1 hq
      obtain ⟨-, hk⟩ := Option.ite_none_right_eq_some.1 hk
      cases hk
      rw [← hp z (hs ▸ mem_append_left _ hz)]
      exact (hso.2.2 z hz _ mem_cons_self).le
    · cases mem_singleton.1 hq
      exact (hp _ (hs ▸ mem_append_right _ mem_cons_self)).ge
  have hlt : e.1 < distance := hlt.trans_le hle
  rw [hs] at he
  rcases mem_append.1 he with hb | hre
  · exact hf e hb
  · rcases mem_cons.1 hre with rfl | ha
    · exact absurd hlt (lt_irrefl _)
    · exact absurd hlt (hso.2.1.1 e ha).asymm

def yieldedPeer : IterOutput P → Option P
  | .polled state => state.yielded
  | .updated _ => none

def yielded (outputs : List (IterOutput P)) : List P := outputs.filterMap yieldedPeer

omit [AsKeyBytes P] in
theorem yielded_append_singleton (past : List (IterOutput P)) (out : IterOutput P) :
    yielded (past ++ [out]) = yielded past ++ (yieldedPeer out).toList := by
  rw [yielded, filterMap_append]
  cases hp : yieldedPeer out <;> simp [hp, yielded]

theorem yieldedPeer_exec (hi : it.Inv) {call : IterCall P} (hy : yieldedPeer (it.exec call).1 = some peer) :
    ¬it.Contacted peer ∧ (it.exec call).2.Contacted peer := by
  cases call with
  | next now =>
    refine (nextCase it now).yielded ?_ hi.coherent
    exact PeersIterState.yielded_eq_some_iff.1 hy
  | onSuccess | onFailure => cases hy

/-- What is known of a query and of the peers it has handed out. -/
structure History (config : ClosestPeersIterConfig) (target : KeyBytes) (past : List (IterOutput P))
    (it : ClosestPeersIter P) : Prop where
  inv : it.Inv
  config_eq : it.config = config
  target_eq : it.target = target
  nodup : (yielded past).Nodup
  contacted : ∀ peer ∈ yielded past, it.Contacted peer

theorem History.exec {target : KeyBytes} {past : List (IterOutput P)} (hh : History config target past it)
    (call : IterCall P) : History config target (past ++ [(it.exec call).1]) (it.exec call).2 := by
  obtain ⟨hi, hc, hco⟩ := exec_kept hh.inv call
  refine ⟨hi, hc.1.trans hh.config_eq, hc.2.trans hh.target_eq, ?_, ?_⟩
  · rw [yielded_append_singleton, nodup_append]
    refine ⟨hh.nodup, Option.toList_nodup _, fun peer hp peer' hn heq => ?_⟩
    subst heq
    exact (yieldedPeer_exec hh.inv (Option.mem_toList.1 hn)).1 (hh.contacted peer hp)
  · intro peer hpe
    rw [yielded_append_singleton] at hpe
    rcases mem_append.1 hpe with hp | hn
    · exact hco peer (hh.contacted peer hp)
    · exact (yieldedPeer_exec hh.inv (Option.mem_toList.1 hn)).2

theorem history_run (config : ClosestPeersIterConfig) (tgt : KeyBytes) (known : List P) (calls : List (IterCall P)) :
    History config tgt (runTotal exec (withConfig config tgt known) calls).1
      (runTotal exec (withConfig config tgt known) calls).2 := by
  refine runTotal_history (fun past it call (hit : History config tgt past it) => hit.exec call) calls [] ?_
  exact ⟨inv_withConfig config tgt known, rfl, rfl, nodup_nil, nofun⟩

/-- Whatever the calls, the peers waited for are counted right and are not more than the configuration
allows, no peer is handed out twice, and a query that is finished with enough results returns the closest
peers that succeeded, in the order of their distance, with nothing more to expect of any closer peer. -/
theorem run_closest_peers {config : ClosestPeersIterConfig} {target : KeyBytes} {known : List P}
    {calls : List (IterCall P)} {outputs : List (IterOutput P)} {it : ClosestPeersIter P}
    (hrun : runTotal exec (withConfig config target known) calls = (outputs, it)) :
    it.numWaiting = it.waiting.length ∧ (yielded outputs).Nodup ∧
    it.waiting.length ≤ max config.parallelism config.numResults ∧
    (it.state = .finished → config.numResults ≤ it.succeeded.length →
      it.intoResult.length = config.numResults ∧ it.intoResult ⊆ it.succeeded ∧
      it.intoResult.Pairwise (fun p q => target.distance (keyBytes p) < target.distance (keyBytes q)) ∧
      (∀ p ∈ it.succeeded, p ∈ it.intoResult ∨
        ∀ q ∈ it.intoResult, target.distance (keyBytes q) < target.distance (keyBytes p)) ∧
      ∀ entry ∈ it.closestPeers.entries, ∀ q ∈ it.intoResult,
        entry.1 < target.distance (keyBytes q) → entry.2.state.isFinal) := by
  have hh := history_run config target known calls
  rw [hrun] at hh
  obtain ⟨hi, hc, rfl, hn, -⟩ := hh
  have hco : it.numWaiting = it.waiting.length := hi.numWaiting_eq.trans (length_waiting it).symm
  refine ⟨hco, hn, ?_, fun hf hr => ?_⟩
  · rw [← hco, ← hc]
    exact hi.numWaiting_le
  rw [← hc] at hr ⊢
  have hs := succeeded_sorted hi.coherent
  have ho := hi.optimal hf (length_filterMap_succeeded _ ▸ hr)
  refine ⟨length_take_of_le hr, take_subset _ _, hs.sublist (take_sublist _ _),
    fun p hp => ?_, fun entry he q hq hlt => ho.isFinal_of_lt hi.coherent hq he hlt⟩
  rw [← take_append_drop it.config.numResults it.succeeded] at hp hs
  rcases mem_append.1 hp with hp | hp
  · exact .inl hp
  · exact .inr fun q hq => (pairwise_append.1 hs).2.2 q hq p hp

/-- Two results are searched for; the closest peer and the third one do not answer in time. -/
def timedOutCalls : List (IterCall KeyBytes) :=
  [.next 0, .next 0, .onSuccess ⟨4⟩ [⟨2⟩], .next 1, .next 11, .next 11, .onSuccess ⟨8⟩ [], .next 12]

theorem run_closest_peers_timedOut : ∃ outputs it,
    runTotal exec (withConfig ⟨2, by decide, 2, by decide, 10⟩ ⟨0⟩ [⟨5⟩, ⟨4⟩, ⟨8⟩]) timedOutCalls =
      (outputs, it) ∧ yielded outputs = [⟨4⟩, ⟨5⟩, ⟨2⟩, ⟨8⟩] ∧ it.state = .finished ∧
      it.intoResult = [⟨4⟩, ⟨8⟩] ∧
      ∀ entry ∈ it.closestPeers.entries, entry.1 < KeyBytes.distance ⟨0⟩ ⟨8⟩ → entry.2.state.isFinal := by
  refine ⟨_, _, rfl, by decide +kernel, by decide +kernel, by decide +kernel, fun entry he hlt => ?_⟩
  obtain ⟨-, -, -, hr⟩ := run_closest_peers
    (rfl : runTotal exec (withConfig ⟨2, by decide, 2, by decide, 10⟩ ⟨0⟩ [⟨5⟩, ⟨4⟩, ⟨8⟩]) timedOutCalls = _)
  obtain ⟨-, -, -, -, hf⟩ := hr (by decide +kernel) (by decide +kernel)
  exact hf entry he ⟨8⟩ (by decide +kernel) hlt

end ClosestPeersIter

/-! When the query towards the closest peers says that it waits at capacity. The capacity is looked up before the peers
are gone through, so that those whose time is up still count. -/

namespace ClosestPeersIter

variable {P : Type}

def capacity (it : ClosestPeersIter P) : Nat :=
  match it.state with
  | .stalled => max it.config.numResults it.config.parallelism
  | .iterating _ => it.config.parallelism
  | .finished => 0

/-- The loop does not pass the peer when the query is at capacity. -/
def blocks (now : Instant) (entry : Distance × Peer P) : Bool :=
  match entry.2.state with
  | .notContacted => true
  | .waiting timeout => now < timeout
  | _ => false

def ahead (now : Instant) (entries : List (Distance × Peer P)) : List (Distance × Peer P) :=
  entries.takeWhile fun entry => !blocks now entry

theorem atCapacity_iff (it : ClosestPeersIter P) : it.atCapacity ↔ it.capacity ≤ it.numWaiting := by
  rw [atCapacity, capacity]
  cases it.state <;> simp

variable {config : ClosestPeersIterConfig} {now : Instant}

theorem turn_below (ctr : Option Nat) (numWaiting : Nat) (peer : Peer P) :
    (turn config now false ctr numWaiting peer).next ≠ .inl .atCapacity := by
  unfold turn
  simp only [Bool.false_eq_true, if_false]
  repeat' split
  all_goals exact nofun

theorem scan_below (ctr : Option Nat) (numWaiting : Nat) (entries : List (Distance × Peer P)) :
    (scan config now false ctr numWaiting entries).2.2 ≠ .atCapacity := by
  induction entries generalizing ctr numWaiting with
  | nil => exact nofun
  | cons e rest ih =>
    rw [scan]
    split
    · next he =>
      rintro rfl
      exact turn_below ctr numWaiting e.2 he
    · exact ih _ _

/-- At capacity the loop goes on to the first peer that blocks it, and lets go of the peers whose time is up. -/
theorem scan_full (now : Instant) {count : Nat} (numWaiting : Nat) (entries : List (Distance × Peer P))
    (hc : count < config.numResults) :
    ((scan config now true (some count) numWaiting entries).2.2 = .atCapacity ↔
      count + succeededCount (ahead now entries) < config.numResults ∧ ahead now entries ≠ entries) ∧
    ((scan config now true (some count) numWaiting entries).2.2 = .atCapacity →
      waitingCount (scan config now true (some count) numWaiting entries).1 + waitingCount (ahead now entries) =
        waitingCount entries) := by
  induction entries generalizing count numWaiting with
  | nil => simp [scan, ahead]
  | cons e rest ih =>
    obtain ⟨_, _, st⟩ := e
    cases st with
    | notContacted => simp [scan, turn, ahead, blocks, succeededCount, waitingCount, hc]
    | waiting timeout =>
      by_cases ho : timeout ≤ now
      · simpa [scan, turn, ahead, blocks, ho, succeededCount_cons, waitingCount_cons, PeerState.isWaiting,
          ← Nat.add_assoc] using ih _ hc
      · simp [scan, turn, ahead, blocks, ho, succeededCount, waitingCount, hc]
    | unresponsive | failed =>
      simpa [scan, turn, ahead, blocks, succeededCount_cons, waitingCount_cons, PeerState.isWaiting] using ih _ hc
    | succeeded =>
      by_cases he : config.numResults ≤ count + 1
      · simp [scan, turn, ahead, blocks, he, succeededCount_cons]
        omega
      · simpa [scan, turn, ahead, blocks, he, succeededCount_cons, waitingCount_cons, PeerState.isWaiting,
          Nat.add_assoc, Nat.add_comm 1] using ih _ (Nat.not_le.1 he)

variable {it : ClosestPeersIter P}

theorem next_atCapacity (now : Instant) (hs : it.state ≠ .finished) :
    ((it.next now).1 = .waitingAtCapacity ↔
      (scan it.config now it.atCapacity (some 0) it.numWaiting it.closestPeers.entries).2.2 = .atCapacity) ∧
    ((it.next now).1 = .waitingAtCapacity → (it.next now).2.capacity = it.capacity ∧
      (it.next now).2.closestPeers.entries =
        (scan it.config now it.atCapacity (some 0) it.numWaiting it.closestPeers.entries).1) := by
  unfold next
  rw [if_neg hs]
  dsimp only
  split
  · next he => simp [he]
  · next he => exact ⟨iff_of_true rfl he, fun _ => ⟨rfl, rfl⟩⟩
  · next he => simp [he]
  · next he =>
    rw [he]
    split_ifs <;> simp

variable [AsKeyBytes P]

/-- In every run the query says that it waits at capacity only when it does, if and only if it has not passed so many
peers whose time is up that it is below its capacity when it comes to the first peer that blocks it. -/
theorem run_capacity_iff (config : ClosestPeersIterConfig) (target : KeyBytes) (known : List P)
    (calls : List (IterCall P)) (now : Instant) :
    ∃ outputs it, runTotal exec (withConfig config target known) calls = (outputs, it) ∧
      (((it.next now).1 = .waitingAtCapacity →
          (it.next now).2.capacity ≤ waitingCount (it.next now).2.closestPeers.entries) ↔
        (it.capacity ≤ waitingCount it.closestPeers.entries →
          succeededCount (ahead now it.closestPeers.entries) < it.config.numResults →
          ahead now it.closestPeers.entries ≠ it.closestPeers.entries →
          it.capacity + waitingCount (ahead now it.closestPeers.entries) ≤ waitingCount it.closestPeers.entries)) := by
  obtain ⟨hi, -⟩ := history_run config target known calls
  refine ⟨_, _, rfl, ?_⟩
  generalize (runTotal exec (withConfig config target known) calls).2 = it at hi ⊢
  have hf := it.atCapacity_iff
  rw [hi.numWaiting_eq] at hf
  by_cases hfi : it.state = .finished
  · have hl : waitingCount (ahead now it.closestPeers.entries) ≤ waitingCount it.closestPeers.entries :=
      (List.takeWhile_sublist _).countP_le
    simp [next, hfi, capacity, hl]
  obtain ⟨ha, hle⟩ := next_atCapacity now hfi
  cases hc : it.atCapacity with
  | false =>
    rw [hc] at ha hf
    exact iff_of_true (fun h => absurd (ha.1 h) (scan_below _ _ _)) fun h => absurd (hf.2 h) Bool.false_ne_true
  | true =>
    rw [hc] at ha hle hf
    obtain ⟨hb, hco⟩ := scan_full now it.numWaiting it.closestPeers.entries it.config.numResults_pos
    rw [Nat.zero_add] at hb
    constructor
    · intro hr _ hre hm
      have hw := ha.2 (hb.2 ⟨hre, hm⟩)
      have hla := hr hw
      rw [(hle hw).1, (hle hw).2] at hla
      rw [← hco (ha.1 hw)]
      exact Nat.add_le_add_right hla _
    · intro hr hw
      obtain ⟨hre, hm⟩ := hb.1 (ha.1 hw)
      have hla := hr (hf.1 rfl) hre hm
      rw [← hco (ha.1 hw)] at hla
      rw [(hle hw).1, (hle hw).2]
      exact Nat.le_of_add_le_add_right hla

/-- The only peer that is waited for has not answered in time, and yet the next one is not contacted. -/
theorem waits_below_capacity : ∃ outputs it, runTotal exec (withConfig ⟨1, by decide, 1, by decide, 10⟩ ⟨0⟩
      [(⟨4⟩ : KeyBytes), ⟨5⟩]) [.next 0] = (outputs, it) ∧
    (it.next 10).1 = .waitingAtCapacity ∧ (it.next 10).2.capacity = 1 ∧
      waitingCount (it.next 10).2.closestPeers.entries = 0 :=
  ⟨_, _, rfl, by decide +kernel, by decide +kernel, by decide +kernel⟩

end ClosestPeersIter
end RustLibp2p.Kad
