import Mathlib.Data.Finset.Basic
import RustLibp2p.Transition

/-! What the score of a gossipsub peer is made from: the addresses of its connections, and the messages it has
delivered. -/

namespace RustLibp2p.Gossipsub
open Transition

section Addresses

variable {Peer Ip : Type} [DecidableEq Peer] [DecidableEq Ip]

/-- The addresses of each peer that is known, and the peers at each address. -/
structure PeerScore (Peer Ip : Type) where
  knownIps : Peer → Option (Finset Ip)
  peerIps : Ip → Finset Peer

namespace PeerScore

variable (score : PeerScore Peer Ip) (peer : Peer)

def ips : Finset Ip := (score.knownIps peer).getD ∅

def addPeer : PeerScore Peer Ip :=
  { score with knownIps := fun other => if other = peer then some (score.ips peer) else score.knownIps other }

def addIp (ip : Ip) : PeerScore Peer Ip where
  knownIps other := if other = peer then some (insert ip (score.ips peer)) else score.knownIps other
  peerIps target := if target = ip then insert peer (score.peerIps ip) else score.peerIps target

def removeIp (ip : Ip) : PeerScore Peer Ip :=
  match score.knownIps peer with
  | none => score
  | some ips =>
    { knownIps := fun other => if other = peer then some (ips.erase ip) else score.knownIps other
      peerIps := fun target => if target = ip then (score.peerIps ip).erase peer else score.peerIps target }

def addIp? (ip : Option Ip) : PeerScore Peer Ip := ip.elim score (score.addIp peer)

def removeIp? (ip : Option Ip) : PeerScore Peer Ip := ip.elim score (score.removeIp peer)

/-- A peer with a positive score is forgotten; of others the record is kept. -/
def removePeer (positive : Bool) : PeerScore Peer Ip :=
  if positive then
    match score.knownIps peer with
    | none => score
    | some ips =>
      { knownIps := fun other => if other = peer then none else score.knownIps other
        peerIps := fun ip => if ip ∈ ips then (score.peerIps ip).erase peer else score.peerIps ip }
  else score

/-- Both maps hold the same pairs. -/
def Records (pairs : Peer → Ip → Prop) : Prop :=
  ∀ peer ip, (peer ∈ score.peerIps ip ↔ pairs peer ip) ∧ (ip ∈ score.ips peer ↔ pairs peer ip)

variable {score peer} {pairs : Peer → Ip → Prop} (hr : score.Records pairs)
include hr

omit [DecidableEq Ip] in
theorem Records.addPeer : (score.addPeer peer).Records pairs := by
  intro other tgt
  refine ⟨(hr other tgt).1, ?_⟩
  rw [← (hr other tgt).2]
  by_cases ho : other = peer <;> simp [PeerScore.addPeer, ips, ho]

theorem Records.addIp? (ip : Option Ip) : (score.addIp? peer ip).Records fun other tgt =>
    pairs other tgt ∨ (other = peer ∧ ip = some tgt) := by
  intro other tgt
  have hpair := hr other tgt
  by_cases ho : other = peer <;> cases ip <;> grind [PeerScore.addIp?, PeerScore.addIp, ips]

theorem Records.removeIp? (ip : Option Ip) : (score.removeIp? peer ip).Records fun other tgt =>
    pairs other tgt ∧ ¬ (other = peer ∧ ip = some tgt) := by
  intro other tgt
  have hpair := hr other tgt
  by_cases ho : other = peer <;> cases hk : score.knownIps peer <;> cases ip <;>
    grind [PeerScore.removeIp?, PeerScore.removeIp, ips]

theorem Records.removePeer (positive : Bool) : (score.removePeer peer positive).Records fun other tgt =>
    pairs other tgt ∧ ¬ (other = peer ∧ positive) := by
  intro other tgt
  have hpair := hr other tgt
  by_cases ho : other = peer <;> cases hk : score.knownIps peer <;> cases positive <;> grind [PeerScore.removePeer, ips]

end PeerScore

/-- The record of the addresses, and the addresses of the connections that there are; one may have none. -/
structure Addresses (Peer Ip : Type) where
  score : PeerScore Peer Ip
  live : Peer → List (Option Ip)

/-- What the swarm reports of a connection. At a last closing, `positive` is whether the score of the peer is. -/
inductive Report (Peer Ip : Type) where
  | established (peer : Peer) (ip : Option Ip)
  | closed (peer : Peer) (ip : Option Ip) (positive : Bool)
  | addressChange (peer : Peer) (old new : Option Ip)

namespace Addresses

def new : Addresses Peer Ip := ⟨⟨fun _ => none, fun _ => ∅⟩, fun _ => []⟩

section

variable (addresses : Addresses Peer Ip)

def setLive (peer : Peer) (score : PeerScore Peer Ip) (ips : List (Option Ip)) :
    Addresses Peer Ip :=
  ⟨score, fun other => if other = peer then ips else addresses.live other⟩

/-- A connection that there is not is not reported. -/
def step : Report Peer Ip → Unit × Addresses Peer Ip
  | .established peer ip =>
    let score := addresses.score.addIp? peer ip
    ((), addresses.setLive peer (if addresses.live peer = [] then score.addPeer peer else score)
      (ip :: addresses.live peer))
  | .closed peer ip positive =>
    let rest := (addresses.live peer).erase ip
    let score := addresses.score.removeIp? peer ip
    if ip ∈ addresses.live peer then
      ((), addresses.setLive peer (if rest = [] then score.removePeer peer positive else score) rest)
    else ((), addresses)
  | .addressChange peer old new =>
    if old ∈ addresses.live peer then
      ((), addresses.setLive peer ((addresses.score.removeIp? peer old).addIp? peer new)
        (new :: (addresses.live peer).erase old))
    else ((), addresses)

/-- The peers at an address are those that it is recorded for. -/
def Inverse : Prop :=
  ∀ peer ip, peer ∈ addresses.score.peerIps ip ↔ ip ∈ addresses.score.ips peer

/-- The addresses of a peer are those of its connections. -/
def Exact : Prop :=
  ∀ peer ip, ip ∈ addresses.score.ips peer ↔ some ip ∈ addresses.live peer

/-- The address that a connection gives up is not the address of another one of the peer. -/
def alone : Report Peer Ip → Prop
  | .established _ _ => True
  | .closed peer ip _ => ip = none ∨ ip ∉ (addresses.live peer).erase ip
  | .addressChange peer old new => old = none ∨ old = new ∨ old ∉ (addresses.live peer).erase old

instance : ∀ report, Decidable (addresses.alone report)
  | .established _ _ => .isTrue trivial
  | .closed _ _ _ | .addressChange _ _ _ => inferInstanceAs (Decidable (_ ∨ _))

end

variable {addresses : Addresses Peer Ip} {pairs : Peer → Ip → Prop}

/-- The record stays one, and an exact one if no other connection has the address that is given up. -/
theorem records_step (hr : addresses.score.Records pairs) (report : Report Peer Ip) :
    ∃ pairs', (addresses.step report).2.score.Records pairs' ∧
      ((∀ peer ip, pairs peer ip ↔ some ip ∈ addresses.live peer) → addresses.alone report →
        ∀ peer ip, pairs' peer ip ↔ some ip ∈ (addresses.step report).2.live peer) := by
  have herase : ∀ {peer ip}, (ip = none ∨ ip ∉ (addresses.live peer).erase ip) → ∀ target,
      some target ∈ (addresses.live peer).erase ip ↔ some target ∈ addresses.live peer ∧ ip ≠ some target := by
    intro peer ip hip target
    by_cases ht : ip = some target
    · subst ht
      simpa using hip
    · simp [List.mem_erase_of_ne (Ne.symm ht), ht]
  unfold step
  cases report with
  | established peer ip =>
    refine ⟨fun other target => pairs other target ∨ (other = peer ∧ ip = some target), ?_, fun he _ other target => ?_⟩
    · dsimp only [setLive]
      split_ifs
      · exact (hr.addIp? ip).addPeer
      · exact hr.addIp? ip
    · by_cases ho : other = peer
      · simpa [setLive, he, ho, @eq_comm _ (some target)] using or_comm
      · simp [setLive, he, ho]
  | closed peer ip positive =>
    dsimp only
    split_ifs with hl hrest
    · refine ⟨_, (hr.removeIp? ip).removePeer positive, fun he ha other target => ?_⟩
      have ht := herase ha target
      rw [hrest] at ht
      by_cases ho : other = peer
      · simp [setLive, he, ho, hrest] at ht ⊢
        tauto
      · simp [setLive, he, ho]
    · refine ⟨_, hr.removeIp? ip, fun he ha other target => ?_⟩
      by_cases ho : other = peer <;> simp [setLive, he, ho, herase ha]
    · exact ⟨pairs, hr, fun he _ => he⟩
  | addressChange peer old new =>
    dsimp only
    split_ifs with hl
    · refine ⟨_, (hr.removeIp? old).addIp? new, fun he ha other target => ?_⟩
      by_cases ho : other = peer
      · have hor : some target ∈ (addresses.live peer).erase old ∨ new = some target ↔
            (some target ∈ addresses.live peer ∧ old ≠ some target) ∨ new = some target := by
          by_cases hn : old = new
          · subst hn
            by_cases ht : old = some target
            · simp [ht]
            · simp [List.mem_erase_of_ne (Ne.symm ht), ht]
          · rw [herase (ha.imp_right fun hor => hor.resolve_left hn) target]
        simpa [setLive, he, ho, or_comm, eq_comm] using hor.symm
      · simp [setLive, he, ho]
    · exact ⟨pairs, hr, fun he _ => he⟩

/-- In every run the peers at an address are those that it is recorded for. If no connection gives up an address that
another connection of its peer has, the addresses of a peer are those of its connections. -/
theorem run_addresses (reports : List (Report Peer Ip)) : let last := (runTotal step new reports).2
    last.Inverse ∧ (AlongTotal step (fun addresses report => addresses.alone report) new reports → last.Exact) := by
  have hn : (new : Addresses Peer Ip).score.Records fun _ _ => False := by simp [PeerScore.Records, new, PeerScore.ips]
  have hi : ∀ (_ : List Unit) (addresses : Addresses Peer Ip) report, (∃ pairs, addresses.score.Records pairs) →
      ∃ pairs, (addresses.step report).2.score.Records pairs :=
    fun _ _ report ⟨_, hr⟩ => (records_step hr report).imp fun _ => And.left
  have he : ∀ (_ : List Unit) (addresses : Addresses Peer Ip) report,
      (∃ pairs, addresses.score.Records pairs ∧ ∀ peer ip, pairs peer ip ↔ some ip ∈ addresses.live peer) →
      addresses.alone report → ∃ pairs, (addresses.step report).2.score.Records pairs ∧
        ∀ peer ip, pairs peer ip ↔ some ip ∈ (addresses.step report).2.live peer := by
    rintro _ addresses report ⟨pairs, hr, hl⟩ ha
    obtain ⟨pairs', hr', hl'⟩ := records_step hr report
    exact ⟨pairs', hr', hl' hl ha⟩
  constructor
  · obtain ⟨pairs, hr⟩ := runTotal_history hi reports [] ⟨_, hn⟩
    exact fun peer ip => (hr peer ip).1.trans (hr peer ip).2.symm
  · intro hall
    obtain ⟨pairs, hr, hl⟩ := runTotal_along he reports [] ⟨_, hn, by simp [new]⟩ hall
    exact fun peer ip => (hr peer ip).2.trans (hl peer ip)

/-- A peer has two connections from different addresses; one of them moves and the other one closes. -/
theorem run_addresses_moved :
    let reports := [.established 0 (some 1), .established 0 (some 2), .established 1 (some 1),
      .addressChange 0 (some 2) (some 3), .closed 0 (some 1) false]
    AlongTotal step (fun addresses report => addresses.alone report) (new : Addresses Nat Nat) reports ∧
      (runTotal step (new : Addresses Nat Nat) reports).2.Exact := by
  intro reports
  have halone : AlongTotal step (fun addresses report => addresses.alone report) (new : Addresses Nat Nat) reports := by
    decide
  exact ⟨halone, (run_addresses reports).2 halone⟩

/-- Two connections from one address: when one of them closes, the address is gone. -/
theorem address_lost : let last := (runTotal step (new : Addresses Nat Nat)
      [.established 0 (some 1), .established 0 (some 1), .closed 0 (some 1) false]).2
    last.live 0 = [some 1] ∧ last.score.ips 0 = ∅ := by
  decide

end Addresses
end Addresses

section Deliveries

variable {Peer MessageId : Type} [DecidableEq Peer] [DecidableEq MessageId]

inductive DeliveryStatus where
  | unknown
  | valid (time : Nat)
  | invalid
  | ignored
  deriving DecidableEq

/-- The peers are those that have sent the message again. -/
structure DeliveryRecord (Peer : Type) where
  status : DeliveryStatus
  peers : Finset Peer

inductive RejectReason where
  | validationError | selfOrigin | blackListedPeer | blackListedSource | validationIgnored | validationFailed

inductive ScoreCall (Peer : Type) where
  | validateMessage
  | deliverMessage (sender : Peer)
  | duplicatedMessage (sender : Peer)
  | rejectMessage (reason : RejectReason)

/-- What a call finds: the time, how long after its validation a copy of a message counts, and the peers in the mesh of
the topic that the call names. -/
structure ScoreContext (Peer : Type) where
  now : Nat
  window : Nat
  mesh : Finset Peer

namespace DeliveryRecord

variable (record : DeliveryRecord Peer) (context : ScoreContext Peer)

/-- The copies that still count. -/
def markDuplicateMessageDelivery (peer : Peer) (validated : Nat) : Finset Peer :=
  if context.now ≤ validated + context.window then {peer} ∩ context.mesh else ∅

def rejected (status : DeliveryStatus) : DeliveryRecord Peer := if record.status = .unknown then ⟨status, ∅⟩ else record

/-- The peers whose counter of deliveries in the mesh is raised, and the record of the message. -/
def step : ScoreCall Peer → Finset Peer × DeliveryRecord Peer
  | .validateMessage => (∅, record)
  | .deliverMessage sender =>
    if record.status = .unknown then
      (({sender} ∪ record.peers.erase sender) ∩ context.mesh, { record with status := .valid context.now })
    else ({sender} ∩ context.mesh, record)
  | .duplicatedMessage sender =>
    if sender ∈ record.peers then (∅, record)
    else
      match record.status with
      | .unknown => (∅, { record with peers := insert sender record.peers })
      | .valid validated =>
        (markDuplicateMessageDelivery context sender validated, { record with peers := insert sender record.peers })
      | .invalid | .ignored => (∅, record)
  | .rejectMessage reason =>
    match reason with
    | .validationError | .selfOrigin | .blackListedPeer | .blackListedSource => (∅, record)
    | .validationIgnored => (∅, record.rejected .ignored)
    | .validationFailed => (∅, record.rejected .invalid)

/-- How often the counter of a peer is raised for the message. -/
def credited (peer : Peer) : DeliveryRecord Peer → List (ScoreContext Peer × ScoreCall Peer) → Nat
  | _, [] => 0
  | record, (context, call) :: calls =>
    (if peer ∈ (record.step context call).1 then 1 else 0) + credited peer (record.step context call).2 calls

variable {record context} {peer sender : Peer} {calls : List (ScoreContext Peer × ScoreCall Peer)}

theorem eq_of_mem_markDuplicate {validated : Nat}
    (hm : peer ∈ markDuplicateMessageDelivery context sender validated) : peer = sender := by
  unfold markDuplicateMessageDelivery at hm
  split_ifs at hm
  · exact Finset.mem_singleton.1 (Finset.mem_inter.1 hm).1
  · cases hm

theorem credited_after (hs : record.status ≠ .unknown)
    (hn : ∀ e ∈ calls, (∀ other, e.2 ≠ .deliverMessage other) ∧ e.2 ≠ .duplicatedMessage sender) :
    credited peer record calls ≤ if peer ∈ record.peers ∨ peer = sender then 0 else 1 := by
  induction calls generalizing record with
  | nil => exact Nat.zero_le _
  | cons e calls ih =>
    obtain ⟨context, call⟩ := e
    obtain ⟨⟨hd, hdup⟩, hrest⟩ := List.forall_mem_cons.1 hn
    have hsame : credited peer record calls ≤ if peer ∈ record.peers ∨ peer = sender then 0 else 1 := ih hs hrest
    unfold credited
    cases call with
    | validateMessage => simpa [step] using hsame
    | deliverMessage other => exact absurd rfl (hd other)
    | rejectMessage reason => cases reason <;> simpa [step, rejected, hs] using hsame
    | duplicatedMessage other =>
      have hne : other ≠ sender := fun he => hdup (he ▸ rfl)
      by_cases hp : other ∈ record.peers
      · simpa [step, hp] using hsame
      cases hst : record.status with
      | unknown => exact absurd hst hs
      | invalid | ignored => simpa [step, hp, hst] using hsame
      | valid validated =>
        have hlater := @ih { record with peers := insert other record.peers } hs hrest
        simp only [step, hp, hst, if_false, Finset.mem_insert] at hlater ⊢
        by_cases heq : peer = other
        · simp only [heq, hp, hne, true_or, or_self, if_true, if_false] at hlater ⊢
          split_ifs <;> omega
        · rw [if_neg fun hm => heq (eq_of_mem_markDuplicate hm), Nat.zero_add]
          simpa only [heq, false_or] using hlater

/-- The message is delivered at most once, and the peer that delivers it does not send it again. -/
def DeliveredOnce (calls : List (ScoreContext Peer × ScoreCall Peer)) : Prop :=
  calls.Pairwise fun earlier later => ∀ sender, earlier.2 = .deliverMessage sender →
    (∀ other, later.2 ≠ .deliverMessage other) ∧ later.2 ≠ .duplicatedMessage sender

theorem credited_le_one (hs : ∀ time, record.status ≠ .valid time) (hp : DeliveredOnce calls) :
    credited peer record calls ≤ 1 := by
  induction calls generalizing record with
  | nil => exact Nat.zero_le _
  | cons e calls ih =>
    obtain ⟨context, call⟩ := e
    obtain ⟨hfirst, hrest⟩ := List.pairwise_cons.1 hp
    have hsame : credited peer record calls ≤ 1 := ih hs hrest
    unfold credited
    cases call with
    | validateMessage => simpa [step] using hsame
    | rejectMessage reason =>
      have hreject : ∀ status, (∀ time, status ≠ .valid time) → credited peer (record.rejected status) calls ≤ 1 := by
        intro status hst
        unfold rejected
        split_ifs
        · exact ih hst hrest
        · exact hsame
      cases reason with
      | validationIgnored => simpa [step] using hreject .ignored nofun
      | validationFailed => simpa [step] using hreject .invalid nofun
      | _ => simpa [step] using hsame
    | duplicatedMessage other =>
      by_cases hp : other ∈ record.peers
      · simpa [step, hp] using hsame
      cases hst : record.status with
      | valid time => exact absurd hst (hs time)
      | invalid | ignored => simpa [step, hp, hst] using hsame
      | unknown =>
        have hlater := @ih { record with peers := insert other record.peers } hs hrest
        simpa [step, hp, hst] using hlater
    | deliverMessage other =>
      have hafter : ∀ record : DeliveryRecord Peer, record.status ≠ .unknown →
          credited peer record calls ≤ if peer ∈ record.peers ∨ peer = other then 0 else 1 :=
        fun record hs => credited_after hs fun e he => hfirst e he other rfl
      have hsum : ∀ {marked : Finset Peer} {more : Nat}, (peer ∈ marked → peer ∈ record.peers ∨ peer = other) →
          (more ≤ if peer ∈ record.peers ∨ peer = other then 0 else 1) →
          (if peer ∈ marked then 1 else 0) + more ≤ 1 := by
        intro marked more hm hmore
        by_cases hin : peer ∈ marked
        · rw [if_pos (hm hin)] at hmore
          rw [if_pos hin]
          omega
        · rw [if_neg hin]
          split_ifs at hmore <;> omega
      by_cases hst : record.status = .unknown
      · simp only [step, hst, if_true]
        refine hsum (fun hm => ?_) (hafter { record with status := .valid context.now } nofun)
        simp only [Finset.mem_inter, Finset.mem_union, Finset.mem_singleton, Finset.mem_erase] at hm
        tauto
      · simp only [step, hst, if_false]
        exact hsum (fun hm => .inr (Finset.mem_singleton.1 (Finset.mem_inter.1 hm).1)) (hafter record hst)

end DeliveryRecord

/-- How often the counter of a peer is raised for one of the messages. A message without a record has a new one. -/
def creditedFor (msgId : MessageId) (peer : Peer) :
    (MessageId → DeliveryRecord Peer) → List (MessageId × ScoreContext Peer × ScoreCall Peer) → Nat
  | _, [] => 0
  | deliveries, (id, context, call) :: calls =>
    let (marked, record) := (deliveries id).step context call
    (if id = msgId ∧ peer ∈ marked then 1 else 0) + creditedFor msgId peer (Function.update deliveries id record) calls

def callsFor (msgId : MessageId) (calls : List (MessageId × ScoreContext Peer × ScoreCall Peer)) :
    List (ScoreContext Peer × ScoreCall Peer) :=
  (calls.filter fun call => call.1 = msgId).map Prod.snd

theorem creditedFor_eq (msgId : MessageId) (peer : Peer) (deliveries : MessageId → DeliveryRecord Peer)
    (calls : List (MessageId × ScoreContext Peer × ScoreCall Peer)) :
    creditedFor msgId peer deliveries calls =
      DeliveryRecord.credited peer (deliveries msgId) (callsFor msgId calls) := by
  induction calls generalizing deliveries with
  | nil => rfl
  | cons call calls ih =>
    obtain ⟨id, context, call⟩ := call
    rw [creditedFor]
    dsimp only
    rw [ih]
    by_cases hid : id = msgId
    · subst hid
      simp [callsFor, DeliveryRecord.credited]
    · simp [callsFor, hid, Function.update_of_ne (Ne.symm hid)]

/-- In every run in which each message is delivered at most once, and not sent again by the peer that delivers it, the
counter of a peer is raised at most once for a message. -/
theorem credited_once (calls : List (MessageId × ScoreContext Peer × ScoreCall Peer)) (msgId : MessageId)
    (honce : DeliveryRecord.DeliveredOnce (callsFor msgId calls)) (peer : Peer) :
    creditedFor msgId peer (fun _ => ⟨.unknown, ∅⟩) calls ≤ 1 := by
  rw [creditedFor_eq]
  exact DeliveryRecord.credited_le_one nofun honce

/-- The calls of a node that has the peers 0 and 1 in its mesh. -/
def inMesh (call : ScoreCall Nat) : Nat × ScoreContext Nat × ScoreCall Nat := (7, ⟨0, 10, {0, 1}⟩, call)

theorem credited_once_copied :
    DeliveryRecord.DeliveredOnce (callsFor 7 [inMesh (.deliverMessage 0), inMesh (.duplicatedMessage 1)]) ∧
      creditedFor 7 1 (fun _ => ⟨.unknown, ∅⟩) [inMesh (.deliverMessage 0), inMesh (.duplicatedMessage 1)] ≤ 1 :=
  have honce : DeliveryRecord.DeliveredOnce
      (callsFor 7 [inMesh (.deliverMessage 0), inMesh (.duplicatedMessage 1)]) := by
    simp [DeliveryRecord.DeliveredOnce, callsFor, inMesh]
  ⟨honce, credited_once _ 7 honce 1⟩

/-- The peer that delivers a message sends it once more. -/
theorem credited_twice :
    creditedFor 7 0 (fun _ => ⟨.unknown, ∅⟩) [inMesh (.deliverMessage 0), inMesh (.duplicatedMessage 0)] = 2 := by
  decide

end Deliveries
end RustLibp2p.Gossipsub
