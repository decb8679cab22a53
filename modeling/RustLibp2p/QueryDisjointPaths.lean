import RustLibp2p.QueryDisjoint

/-! The paths of a query are disjoint: over any sequence of calls each peer is contacted once, on behalf of
one path, and the peers it reports are learned by that path alone. -/

namespace RustLibp2p.Kad
open Transition List Option Function

/-- Among the calls on a path is the `next` that handed the peer out. -/
def PathCall.Handed {P : Type} [AsKeyBytes P] (start : ClosestPeersIter P) (calls : List (PathCall P))
    (peer : P) : Prop :=
  ∃ before now after, calls = before ++ .call (.next now) :: after ∧
    ((before.foldl PathCall.apply start).next now).1 = .waiting (some peer)

theorem PathCall.Handed.append {P : Type} [AsKeyBytes P] {start : ClosestPeersIter P}
    {calls : List (PathCall P)} {peer : P} (hh : PathCall.Handed start calls peer)
    (later : List (PathCall P)) : PathCall.Handed start (calls ++ later) peer := by
  obtain ⟨pre, now, after, rfl, hy⟩ := hh
  exact ⟨pre, now, after ++ later, by rw [append_assoc, cons_append], hy⟩

namespace ClosestDisjointPeersIter

variable {P : Type} [AsKeyBytes P] {n : Nat}

/-- The path on whose behalf a peer was contacted. -/
def initiator (s : ClosestDisjointPeersIter P n) (peer : P) : Option (Fin n) :=
  (s.contactedPeers peer).map PeerState.initiatedBy

/-- What is known of the calls on the paths, when all paths started alike and the query has returned the
given peers. -/
structure Paths (start : ClosestPeersIter P) (peers : List P) (s : ClosestDisjointPeersIter P n) : Prop where
  nodup : peers.Nodup
  contacted_iff : ∀ peer, peer ∈ peers ↔ ∃ i, s.initiator peer = some i
  replay : ∀ i, s.iters i = (s.calls i).foldl PathCall.apply start
  learned : ∀ i peer closerPeers, .call (.onSuccess peer closerPeers) ∈ s.calls i → closerPeers ≠ [] →
    s.initiator peer = some i
  handed : ∀ peer i, s.initiator peer = some i → PathCall.Handed start (s.calls i) peer

variable {start : ClosestPeersIter P} {peers : List P} {s : ClosestDisjointPeersIter P n}

theorem paths_start (start : ClosestPeersIter P) (i : Fin n) :
    Paths start [] ⟨fun _ => start, i, fun _ => none, fun _ => []⟩ where
  nodup := List.nodup_nil
  contacted_iff peer := by simp [initiator]
  replay _ := rfl
  learned _ _ _ hmem := nomatch hmem
  handed _ _ hi := nomatch hi

theorem Paths.onPath (hs : Paths start peers s) (i : Fin n) {call : PathCall P}
    (hq : ∀ peer closer, call = .call (.onSuccess peer closer) → closer = []) :
    Paths start peers (s.onPath i call) where
  __ := hs
  replay j := by
    rcases eq_or_ne j i with rfl | hji
    · simp only [ClosestDisjointPeersIter.onPath, update_self, foldl_append, ← hs.replay j]
      rfl
    · simp only [ClosestDisjointPeersIter.onPath, update_of_ne hji, hs.replay j]
  learned j peer closer hmem hne := by
    refine hs.learned j peer closer ?_ hne
    rcases eq_or_ne j i with rfl | hji
    · simp only [ClosestDisjointPeersIter.onPath, update_self] at hmem
      refine (mem_append.1 hmem).resolve_right fun hc => hne ?_
      exact hq peer closer (mem_singleton.1 hc).symm
    · simpa only [ClosestDisjointPeersIter.onPath, update_of_ne hji] using hmem
  handed peer j hi := by
    have hh := hs.handed peer j hi
    rcases eq_or_ne j i with rfl | hji
    · simp only [ClosestDisjointPeersIter.onPath, update_self]
      exact hh.append _
    · simpa only [ClosestDisjointPeersIter.onPath, update_of_ne hji] using hh

theorem Paths.handOn (hs : Paths start peers s) (i : Fin n) (peer : P) (resp : ResponseState) :
    Paths start peers (s.handOn i peer resp) := by
  cases resp with
  | waiting => exact hs
  | succeeded =>
    refine hs.onPath i fun p closer hc => ?_
    cases hc
    rfl
  | failed => exact hs.onPath i nofun

variable [DecidableEq P]

omit [AsKeyBytes P] in
theorem setContacted_initiator (s : ClosestDisjointPeersIter P n) (peer : P) (state : PeerState n) (p : P) :
    (s.setContacted peer state).initiator p = if p = peer then some state.initiatedBy else s.initiator p := by
  simp only [initiator, setContacted, update_apply]
  split_ifs <;> rfl

variable {peer : P} {state : PeerState n}

theorem Paths.contact (hs : Paths start peers s) {i : Fin n} {now : Instant}
    (hy : ((s.iters i).next now).1 = .waiting (some peer)) (hn : s.contactedPeers peer = none) :
    Paths start (peers ++ [peer]) ((s.onPath i (.call (.next now))).setContacted peer (.new i)) := by
  have hp : Paths start peers (s.onPath i (.call (.next now))) := hs.onPath i nofun
  have hf : peer ∉ peers := by
    intro hmem
    obtain ⟨j, hj⟩ := (hs.contacted_iff peer).1 hmem
    rw [initiator, hn] at hj
    cases hj
  refine ⟨?_, fun p => ?_, hp.replay, fun j p closer hmem hne => ?_, fun p j hj => ?_⟩
  · exact hs.nodup.append (nodup_singleton peer) (by simpa using hf)
  · rw [mem_append, mem_singleton, setContacted_initiator, hp.contacted_iff p]
    split_ifs with heq <;> simp [heq]
  · have hl := hp.learned j p closer hmem hne
    rw [setContacted_initiator, if_neg, hl]
    rintro rfl
    exact hf ((hp.contacted_iff p).2 ⟨j, hl⟩)
  · rw [setContacted_initiator] at hj
    split_ifs at hj with heq
    · cases hj
      subst heq
      refine ⟨s.calls i, now, [], ?_, ?_⟩
      · simp only [setContacted, ClosestDisjointPeersIter.onPath, PeerState.new, update_self]
      · rw [← hs.replay]
        exact hy
    · exact hp.handed p j hj

theorem report_initiator (hs : s.contactedPeers peer = some state)
    (updated : Bool) (resp : ResponseState) (call otherCall : IterCall P) (p : P) :
    (s.report peer state updated resp call otherCall).2.initiator p = s.initiator p := by
  rw [report_eq, initiator]
  cases updated with
  | false => rfl
  | true =>
    simp only [if_true, update_apply]
    split_ifs with heq
    · rw [initiator, heq, hs]
      rfl
    · rfl

theorem Paths.report (hs : Paths start peers s)
    (hst : s.contactedPeers peer = some state) (updated : Bool) (resp : ResponseState)
    {call otherCall : IterCall P} (hc : ∀ p closer, call = .onSuccess p closer → p = peer)
    (ho : ∀ p closer, otherCall = .onSuccess p closer → closer = []) :
    Paths start peers (s.report peer state updated resp call otherCall).2 := by
  have hi := report_initiator hst updated resp call otherCall
  refine ⟨hs.nodup, fun p => ?_, fun j => ?_, fun j p closer hmem hne => ?_, fun p j hj => ?_⟩
  · rw [hi]
    exact hs.contacted_iff p
  · simp only [report_eq, foldl_append, ← hs.replay j]
    rfl
  · rw [hi]
    simp only [report_eq, mem_append, mem_singleton, PathCall.call.injEq] at hmem
    rcases hmem with hol | hn
    · exact hs.learned j p closer hol hne
    split_ifs at hn with hj
    · rw [hc p closer hn.symm, initiator, hst, hj]
      rfl
    · exact absurd (ho p closer hn.symm) hne
  · rw [hi] at hj
    rw [report_eq]
    exact (hs.handed p j hj).append _

theorem Paths.move (hs : Paths start peers s) {s' : ClosestDisjointPeersIter P n} {peer : Option P}
    (hm : Move s peer s') : Paths start (peers ++ peer.toList) s' := by
  have hp : ∀ i now, Paths start peers (s.onPath i (.call (.next now))) := fun i now =>
    hs.onPath i nofun
  cases hm with
  | rotate =>
    rw [toList_none, append_nil]
    exact { hs with }
  | poll i now =>
    rw [toList_none, append_nil]
    exact hp i now
  | known i now =>
    rw [toList_none, append_nil]
    exact (hp i now).handOn i _ _
  | contact i now hy hn => exact hs.contact hy hn
  | onSuccess =>
    rw [toList_none, append_nil, onSuccess]
    split
    next state hst =>
      refine hs.report hst _ _ (fun q closer hc => ?_) (fun q closer hc => ?_) <;> cases hc <;> rfl
    next => exact hs
  | onFailure =>
    rw [toList_none, append_nil, onFailure]
    split
    next state hst => exact hs.report hst _ _ nofun nofun
    next => exact hs
  | finish i =>
    rw [toList_none, append_nil]
    exact hs.onPath i nofun

def returned (outputs : List (DisjointOutput P)) : List P := outputs.filterMap returnedPeer

omit [AsKeyBytes P] [DecidableEq P] in
theorem returned_append_singleton (past : List (DisjointOutput P)) (out : DisjointOutput P) :
    returned (past ++ [out]) = returned past ++ (returnedPeer out).toList := by
  rw [returned, filterMap_append]
  cases hp : returnedPeer out <;> simp [hp, returned]

/-- Whatever the calls, the query never fails; no peer is returned twice, and it is returned when some path
hands it out. The calls on the paths, from which their states follow, report closer peers of a peer to that
path only: whenever the peer responds it is told what the response contains, and every other path that there
was one. -/
theorem run_disjoint_paths (config : ClosestPeersIterConfig) (target : KeyBytes) (known : List P)
    (calls : List (DisjointCall P)) : ∃ outputs s, run exec (withConfig config target known) calls = .ok (outputs, s) ∧
      (returned outputs).Nodup ∧
      (∀ i, s.iters i = (s.calls i).foldl PathCall.apply (.withConfig config target (known.take kValue))) ∧
      (∀ i peer closerPeers, .call (.onSuccess peer closerPeers) ∈ s.calls i → closerPeers ≠ [] →
        peer ∈ returned outputs ∧ s.initiator peer = some i) ∧
      ∀ peer ∈ returned outputs, ∃ i, s.initiator peer = some i ∧
        PathCall.Handed (.withConfig config target (known.take kValue)) (s.calls i) peer ∧
        ∀ closerPeers j, (s.onSuccess peer closerPeers).2.calls j =
          s.calls j ++ [.call (.onSuccess peer (if j = i then closerPeers else []))] := by
  have hst : ∀ past (s : ClosestDisjointPeersIter P config.parallelism) call,
      Paths (.withConfig config target (known.take kValue)) (returned past) s →
      ∃ out s', s.exec call = .ok (out, s') ∧
        Paths (.withConfig config target (known.take kValue)) (returned (past ++ [out])) s' := by
    intro past s call hs
    obtain ⟨out, s', he, hm⟩ := exec_moves s call
    refine ⟨out, s', he, ?_⟩
    rw [returned_append_singleton]
    exact hm.invariant (Paths _) (fun hs hmo => hs.move hmo) _ hs
  have hsa : Paths (.withConfig config target (known.take kValue)) (returned [])
      (withConfig config target known) := paths_start _ _
  obtain ⟨outputs, s, hrun, hp⟩ := run_total_invariant hst calls hsa
  rw [nil_append] at hp
  refine ⟨outputs, s, hrun, hp.nodup, hp.replay, fun i peer closerPeers hmem hne => ?_, fun peer hpe => ?_⟩
  · have hi := hp.learned i peer closerPeers hmem hne
    exact ⟨(hp.contacted_iff peer).2 ⟨i, hi⟩, hi⟩
  obtain ⟨i, hi⟩ := (hp.contacted_iff peer).1 hpe
  refine ⟨i, hi, hp.handed peer i hi, fun closerPeers j => ?_⟩
  obtain ⟨_, hstt, rfl⟩ := map_eq_some_iff.1 hi
  rw [onSuccess, hstt]
  simp only [report_eq]
  split_ifs <;> rfl

end ClosestDisjointPeersIter

/-! Responses along disjoint paths. A response is recorded when the path that contacted the peer still
expects it; one that arrives later is lost, and a path that discovers the peer afterwards waits for a
response that was given already. -/
open ClosestPeersIter

def IterCall.reportsOn {P : Type} (peer : P) : IterCall P → Prop
  | .next _ => False
  | .onSuccess p _ => p = peer
  | .onFailure p => p = peer

variable {P : Type} [AsKeyBytes P]

namespace ClosestPeersIter

section

variable (it : ClosestPeersIter P) (peer : P)

def expects : Bool :=
  it.state ≠ .finished && match it.closestPeers.get? ((keyBytes peer).distance it.target) with
    | some entry => entry.state.isWaiting || decide (entry.state = .unresponsive)
    | none => false

theorem isSome_deliver (res : PeerState)
    (hs : it.state ≠ .finished) : (it.deliver peer res).isSome = it.expects peer := by
  rw [deliver, expects, decide_eq_true hs, Bool.true_and]
  cases it.closestPeers.get? ((keyBytes peer).distance it.target) with
  | none => rfl
  | some e =>
    obtain ⟨_, state⟩ := e
    cases state <;> rfl

theorem onSuccess_updated (closer : List P) : (it.onSuccess peer closer).1 = it.expects peer := by
  by_cases hs : it.state = .finished
  · rw [onSuccess, if_pos hs, expects, hs]
    rfl
  · rw [onSuccess, if_neg hs, ← isSome_deliver it peer .succeeded hs]
    cases it.deliver peer .succeeded <;> rfl

theorem onFailure_updated : (it.onFailure peer).1 = it.expects peer := by
  by_cases hs : it.state = .finished
  · rw [onFailure, if_pos hs, expects, hs]
    rfl
  · rw [onFailure, if_neg hs, ← isSome_deliver it peer .failed hs]
    cases it.deliver peer .failed <;> rfl

end

/-- Unless it is finished, a path waits for none of the given peers. -/
structure Settled (it : ClosestPeersIter P) (given : P → Prop) : Prop where
  coherent : it.Coherent
  told : ∀ peer, given peer → it.state ≠ .finished → peer ∉ it.waiting

variable {given : P → Prop} {it : ClosestPeersIter P}

section

variable (hit : it.Settled given)
include hit

theorem Settled.mono {fewer : P → Prop} (hf : ∀ peer, fewer peer → given peer) : it.Settled fewer :=
  ⟨hit.coherent, fun peer hp => hit.told peer (hf peer hp)⟩

theorem Settled.next (now : Instant) :
    (it.next now).2.Settled fun peer => given peer ∧ (it.next now).1 ≠ .waiting (some peer) := by
  have hn := nextCase it now
  refine ⟨hn.coherent hit.coherent, fun peer hg hs hw => ?_⟩
  have ho := (hn.waiting hw).resolve_right hg.2
  exact hit.told peer hg.1 (fun hf => hs (hn.finished hf)) ho

theorem Settled.report {peer : P} {res : PeerState} {closer : List P}
    {outcome : Bool × ClosestPeersIter P} (hr : res.isFinal)
    (hre : ReportCase it peer res closer outcome) : outcome.2.Settled fun p => given p ∨ p = peer := by
  refine ⟨hre.coherent hit.coherent, fun p hg hs hw => ?_⟩
  have hs : it.state ≠ .finished := fun hf => hs (hre.finished_iff.2 hf)
  obtain ⟨ho, hne⟩ := hre.waiting hr hit.coherent hw
  exact hg.elim (fun hg => hit.told p hg hs ho) (hne hs)

theorem Settled.exec_report {peer : P} {call : IterCall P}
    (hc : call.reportsOn peer) : (it.exec call).2.Settled fun p => given p ∨ p = peer := by
  cases call with
  | next => cases hc
  | onSuccess p closer =>
    cases hc
    exact hit.report rfl (onSuccess_case it peer closer)
  | onFailure =>
    cases hc
    exact hit.report rfl (onFailure_case it peer)

end

theorem settled_finish (hc : it.Coherent) : it.finish.Settled given :=
  ⟨hc, fun _ _ hs => absurd rfl hs⟩

end ClosestPeersIter

namespace ClosestDisjointPeersIter

variable {n : Nat}

def Recorded (s : ClosestDisjointPeersIter P n) (peer : P) : Prop :=
  ∃ state, s.contactedPeers peer = some state ∧ state.response ≠ .waiting

/-- No path that is not finished waits for a peer whose response is recorded. -/
def Told (s : ClosestDisjointPeersIter P n) : Prop := ∀ i, (s.iters i).Settled s.Recorded

variable {s : ClosestDisjointPeersIter P n} {i : Fin n}

theorem onPath_iters_of_ne (s : ClosestDisjointPeersIter P n) {j : Fin n} (hji : j ≠ i) (call : PathCall P) :
    (s.onPath i call).iters j = s.iters j :=
  update_of_ne hji ..

theorem Told.onPath (hs : Told s) (i : Fin n) {call : PathCall P}
    (hp : (call.apply (s.iters i)).Settled s.Recorded) : Told (s.onPath i call) := by
  intro j
  rcases eq_or_ne j i with rfl | hji
  · rw [onPath_iters_self]
    exact hp
  · rw [onPath_iters_of_ne s hji]
    exact hs j

variable {peer p : P} {state : PeerState n} {response : ResponseState} {s' : ClosestDisjointPeersIter P n}
  {now : Instant}

theorem Told.known (hs : Told s)
    (hy : ((s.iters i).next now).1 = .waiting (some peer)) (hk : s.contactedPeers peer = some state) :
    Told ((s.onPath i (.call (.next now))).handOn i peer state.response) := by
  have hpo := (hs i).next now
  rw [hy] at hpo
  have hr : ∀ response, ((s.onPath i (.call (.next now))).handOn i peer response).Recorded = s.Recorded := by
    intro response
    cases response <;> rfl
  -- the report on the peer makes up for the one exception that polling leaves
  have hf : ∀ p, s.Recorded p → (s.Recorded p ∧ PeersIterState.waiting (some peer) ≠ .waiting (some p)) ∨
      p = peer := by
    intro p hp
    rcases eq_or_ne p peer with rfl | hne
    · exact .inr rfl
    · exact .inl ⟨hp, fun heq => hne (by cases heq; rfl)⟩
  intro j
  rw [hr]
  rcases eq_or_ne j i with rfl | hji
  · cases hre : state.response with
    | waiting =>
      rw [handOn, onPath_iters_self]
      refine hpo.mono fun p hp => (hf p hp).resolve_right ?_
      rintro rfl
      obtain ⟨_, hs', hne⟩ := hp
      cases hk.symm.trans hs'
      exact hne hre
    | succeeded =>
      rw [handOn, onPath_iters_self, onPath_iters_self]
      exact (hpo.report rfl (onSuccess_case _ peer [])).mono hf
    | failed =>
      rw [handOn, onPath_iters_self, onPath_iters_self]
      exact (hpo.report rfl (onFailure_case _ peer)).mono hf
  · have ho : ((s.onPath i (.call (.next now))).handOn i peer state.response).iters j = s.iters j := by
      cases state.response <;> simp only [handOn, onPath_iters_of_ne _ hji]
    rw [ho]
    exact hs j

variable [DecidableEq P]

omit [AsKeyBytes P] in
theorem recorded_setContacted_new (hr : (s.setContacted peer (.new i)).Recorded p) : p ≠ peer ∧ s.Recorded p := by
  obtain ⟨state, hs, hne⟩ := hr
  simp only [setContacted, update_apply] at hs
  split_ifs at hs with heq
  · cases hs
    exact absurd rfl hne
  · exact ⟨heq, state, hs, hne⟩

theorem Told.contact (hs : Told s) (hy : ((s.iters i).next now).1 = .waiting (some peer)) :
    Told ((s.onPath i (.call (.next now))).setContacted peer (.new i)) := by
  intro j
  refine ClosestPeersIter.Settled.mono ?_ fun p hr => recorded_setContacted_new hr
  show ((s.onPath i (.call (.next now))).iters j).Settled _
  rcases eq_or_ne j i with rfl | hji
  · have hpo := (hs j).next now
    rw [hy] at hpo
    rw [onPath_iters_self]
    refine hpo.mono fun p hp => ⟨hp.2, fun heq => hp.1 ?_⟩
    cases heq
    rfl
  · rw [onPath_iters_of_ne s hji]
    exact (hs j).mono fun p hp => hp.2

variable {call otherCall : IterCall P} {updated : Bool}

theorem recorded_report
    (hr : (s.report peer state updated response call otherCall).2.Recorded p) : s.Recorded p ∨ p = peer := by
  obtain ⟨st', hs', hne⟩ := hr
  rw [report_eq] at hs'
  cases updated with
  | false => exact .inl ⟨st', hs', hne⟩
  | true =>
    simp only [if_true, update_apply] at hs'
    split_ifs at hs' with heq
    · exact .inr heq
    · exact .inl ⟨st', hs', hne⟩

theorem Told.report (hs : Told s) (state : PeerState n) (updated : Bool) (response : ResponseState)
    (hc : call.reportsOn peer) (ho : otherCall.reportsOn peer) :
    Told (s.report peer state updated response call otherCall).2 := by
  intro j
  refine ClosestPeersIter.Settled.mono ?_ fun p hp => recorded_report hp
  rw [report_eq]
  refine (hs j).exec_report ?_
  split_ifs
  · exact hc
  · exact ho

theorem Told.move (hs : Told s) {peer : Option P} (hm : Move s peer s') : Told s' := by
  cases hm with
  | rotate => exact hs
  | poll i now hy =>
    refine hs.onPath i (((hs i).next now).mono fun p hp => ⟨hp, fun heq => ?_⟩)
    rw [heq] at hy
    cases hy
  | known i now hy hk => exact hs.known hy hk
  | contact i now hy => exact hs.contact hy
  | onSuccess =>
    rw [onSuccess]
    split
    next state hst => exact hs.report state _ _ rfl rfl
    next => exact hs
  | onFailure =>
    rw [onFailure]
    split
    next state hst => exact hs.report state _ _ rfl rfl
    next => exact hs
  | finish i => exact hs.onPath i (settled_finish (hs i).coherent)

theorem Recorded.report (hp : s.Recorded p) (state : PeerState n) (updated : Bool) (hr : response ≠ .waiting)
    (call otherCall : IterCall P) : (s.report peer state updated response call otherCall).2.Recorded p := by
  rw [report_eq]
  cases updated with
  | false => exact hp
  | true =>
    rcases eq_or_ne p peer with rfl | hne
    · exact ⟨_, update_self .., hr⟩
    · obtain ⟨st', hs', hne'⟩ := hp
      exact ⟨st', (update_of_ne hne ..).trans hs', hne'⟩

theorem Recorded.move (hp : s.Recorded p) {peer : Option P} (hm : Move s peer s') : s'.Recorded p := by
  cases hm with
  | rotate | poll | finish => exact hp
  | @known i now q state => cases state.response <;> exact hp
  | @contact i now q hy hn =>
    obtain ⟨state, hs, hne⟩ := hp
    refine ⟨state, (update_of_ne ?_ ..).trans hs, hne⟩
    rintro rfl
    cases hn.symm.trans hs
  | onSuccess =>
    rw [onSuccess]
    split
    next state hs => exact hp.report state _ (by simp) _ _
    next => exact hp
  | onFailure =>
    rw [onFailure]
    split
    next state hs => exact hp.report state _ (by simp) _ _
    next => exact hp

/-- A response of the peer is recorded already, or would be when it arrives now. -/
def awaits (s : ClosestDisjointPeersIter P n) (peer : P) : Bool :=
  match s.contactedPeers peer with
  | some state => state.response ≠ .waiting || (s.iters state.initiatedBy).expects peer
  | none => false

def timely (s : ClosestDisjointPeersIter P n) : DisjointCall P → Bool
  | .onSuccess peer _ => s.awaits peer
  | .onFailure peer => s.awaits peer
  | .next _ => true
  | .finishPaths _ => true
  | .finish => true

theorem recorded_report_of_awaits (hs : s.contactedPeers peer = some state)
    (ha : s.awaits peer) (hu : updated = (s.iters state.initiatedBy).expects peer)
    (hr : response ≠ .waiting) (call otherCall : IterCall P) :
    (s.report peer state updated response call otherCall).2.Recorded peer := by
  simp only [awaits, hs, Bool.or_eq_true, decide_eq_true_eq] at ha
  rcases ha with hre | he
  · exact Recorded.report ⟨state, hs, hre⟩ state updated hr call otherCall
  · rw [report_eq, hu, he]
    exact ⟨_, update_self .., hr⟩

def reported (calls : List (DisjointCall P)) : List P :=
  calls.filterMap fun call =>
    match call with
    | .onSuccess peer _ => some peer
    | .onFailure peer => some peer
    | _ => none

variable [NeZero n] {call : DisjointCall P} {output : DisjointOutput P}

theorem told_exec (hs : Told s)
    (he : s.exec call = .ok (output, s')) : Told s' ∧ ∀ p, s.Recorded p → s'.Recorded p := by
  obtain ⟨_, _, he', hm⟩ := exec_moves s call
  cases he.symm.trans he'
  exact hm.invariant (fun _ s' => Told s' ∧ ∀ p, s.Recorded p → s'.Recorded p)
    (fun hs hmo => ⟨hs.1.move hmo, fun p hp => (hs.2 p hp).move hmo⟩) [] ⟨hs, fun _ => id⟩

theorem recorded_exec (ht : s.timely call)
    (he : s.exec call = .ok (output, s')) (hr : peer ∈ reported [call]) : s'.Recorded peer := by
  have hc : ∀ {p : P}, s.awaits p → ∃ state, s.contactedPeers p = some state := by
    intro p ha
    cases hs : s.contactedPeers p with
    | none => simp only [awaits, hs, Bool.false_eq_true] at ha
    | some state => exact ⟨state, rfl⟩
  cases call with
  | onSuccess p closer =>
    cases List.mem_singleton.1 hr
    cases he
    obtain ⟨state, hs⟩ := hc ht
    show (s.onSuccess peer closer).2.Recorded peer
    rw [onSuccess, hs]
    exact recorded_report_of_awaits hs ht (onSuccess_updated ..) (by simp) _ _
  | onFailure =>
    cases List.mem_singleton.1 hr
    cases he
    obtain ⟨state, hs⟩ := hc ht
    show (s.onFailure peer).2.Recorded peer
    rw [onFailure, hs]
    exact recorded_report_of_awaits hs ht (onFailure_updated ..) (by simp) _ _
  | next | finishPaths | finish => cases hr

omit [DecidableEq P] in
theorem told_withConfig (config : ClosestPeersIterConfig) (tgt : KeyBytes) (known : List P) :
    Told (withConfig config tgt known) := by
  refine fun i => ⟨(inv_withConfig ..).coherent, ?_⟩
  rintro _ ⟨_, hs, -⟩
  cases hs

/-- When every response arrives in time, no path that is not finished waits for a peer whose response was
given, no matter when it discovers the peer. -/
theorem run_responses_handed_on (config : ClosestPeersIterConfig) (target : KeyBytes) (known : List P)
    (calls : List (DisjointCall P))
    (htimely : Along exec (fun s call => s.timely call) (withConfig config target known) calls) :
    ∃ outputs s, run exec (withConfig config target known) calls = .ok (outputs, s) ∧
      ∀ peer ∈ reported calls, ∀ i, (s.iters i).state ≠ .finished → peer ∉ (s.iters i).waiting := by
  obtain ⟨outputs, s, hrun⟩ := run_total (fun s call => have ⟨output, s', he, _⟩ := exec_moves s call; ⟨output, s', he⟩)
    (withConfig config target known) calls
  refine ⟨outputs, s, hrun, fun peer hpe i hst => ?_⟩
  have hse : ∀ (past : List (DisjointCall P)) (s : ClosestDisjointPeersIter P config.parallelism) call output s',
      (Told s ∧ ∀ p ∈ reported past, s.Recorded p) → s.timely call → s.exec call = .ok (output, s') →
      Told s' ∧ ∀ p ∈ reported (past ++ [call]), s'.Recorded p := by
    intro past s call output s' hs htimely he
    obtain ⟨ht, hk⟩ := told_exec hs.1 he
    refine ⟨ht, fun p hp => ?_⟩
    rw [reported, List.filterMap_append] at hp
    rcases List.mem_append.1 hp with hp | hp
    · exact hk p (hs.2 p hp)
    · exact recorded_exec htimely he hp
  have hsr : Told (withConfig config target known) ∧
      ∀ p ∈ reported [], (withConfig config target known).Recorded p :=
    ⟨told_withConfig config target known, nofun⟩
  obtain ⟨ht, hr⟩ := run_along hse [] hsr htimely hrun
  exact (ht i).told peer (hr peer hpe) hst

/-- The second path discovers a peer after its response was given to the first. -/
def discoveredLaterCalls : List (DisjointCall KeyBytes) :=
  [.next 0, .next 0, .onSuccess ⟨4⟩ [⟨2⟩], .next 1, .onSuccess ⟨2⟩ [], .onSuccess ⟨5⟩ [⟨2⟩], .next 2]

theorem run_responses_discoveredLater : ∃ outputs, ∃ s : ClosestDisjointPeersIter KeyBytes 2,
    run exec (withConfig ⟨2, by decide, 4, by decide, 10⟩ ⟨0⟩ [⟨4⟩, ⟨5⟩, ⟨9⟩]) discoveredLaterCalls =
      .ok (outputs, s) ∧ ∀ i, (s.iters i).state ≠ .finished → ⟨2⟩ ∉ (s.iters i).waiting := by
  obtain ⟨outputs, s, hrun, hw⟩ := run_responses_handed_on ⟨2, by decide, 4, by decide, 10⟩ ⟨0⟩
    [⟨4⟩, ⟨5⟩, ⟨9⟩] discoveredLaterCalls (by decide +kernel)
  exact ⟨outputs, s, hrun, hw ⟨2⟩ (by decide +kernel)⟩

/-- The first path contacts a peer, gives up on it and finishes with another one; the response comes
after that, and then the second path discovers the peer. -/
def lateResponseCalls : List (DisjointCall KeyBytes) :=
  [.next 0, .next 0, .onSuccess ⟨4⟩ [⟨2⟩], .next 0, .onSuccess ⟨5⟩ [⟨3⟩], .next 5, .next 10, .onSuccess ⟨2⟩ [],
    .onSuccess ⟨3⟩ [⟨2⟩], .next 10]

theorem waiting_lateResponse : ∃ outputs, ∃ s : ClosestDisjointPeersIter KeyBytes 2,
    run exec (withConfig ⟨2, by decide, 1, by decide, 10⟩ ⟨0⟩ [⟨4⟩, ⟨5⟩]) lateResponseCalls = .ok (outputs, s) ∧
      returned outputs = [⟨4⟩, ⟨5⟩, ⟨2⟩, ⟨3⟩] ∧ ⟨2⟩ ∈ reported lateResponseCalls ∧
      (s.iters 1).state ≠ .finished ∧ ⟨2⟩ ∈ (s.iters 1).waiting :=
  ⟨_, _, rfl, by decide +kernel, by decide +kernel, by decide +kernel, by decide +kernel⟩

end ClosestDisjointPeersIter
end RustLibp2p.Kad
