import Mathlib.Algebra.Ring.Nat
import RustLibp2p.OrdMap

/-! How the parameters of a mesh are checked when a configuration is built, and what the heartbeat subtracts. -/

namespace RustLibp2p.Gossipsub

/-- The sizes of a mesh, as machine integers. -/
structure TopicMeshConfig (w : Nat) where
  meshN : BitVec w
  meshNLow : BitVec w
  meshNHigh : BitVec w
  meshOutboundMin : BitVec w

variable {w : Nat}

namespace TopicMeshConfig

def default : TopicMeshConfig w := ⟨6, 5, 12, 2⟩

variable (params : TopicMeshConfig w)

abbrev Ordered : Prop :=
  params.meshOutboundMin ≤ params.meshNLow ∧ params.meshNLow ≤ params.meshN ∧ params.meshN ≤ params.meshNHigh

def Valid : Prop := params.Ordered ∧ 2 * params.meshOutboundMin.toNat ≤ params.meshN.toNat

/-- The subtractions of the heartbeat for a mesh with so many peers, of which so many are outbound. -/
def subtractions (retainScores len outbound : Nat) : List (Nat × Nat) :=
  (if len < params.meshNLow.toNat then [(params.meshN.toNat, len)] else []) ++
  (if params.meshNHigh.toNat ≤ len then
    [(len, params.meshN.toNat)] ++ (if retainScores < len then [(len, retainScores)] else []) ++
      if params.meshOutboundMin.toNat < outbound then [(outbound, 1)] else []
  else []) ++
  if params.meshNLow.toNat ≤ len ∧ outbound < params.meshOutboundMin.toNat then
    [(params.meshOutboundMin.toNat, outbound)]
  else []

variable {params}

theorem Ordered.subtractions (ho : params.Ordered) (retainScores len outbound : Nat) :
    ∀ sub ∈ params.subtractions retainScores len outbound, sub.2 ≤ sub.1 := by
  simp only [Ordered, BitVec.le_def, TopicMeshConfig.subtractions] at ho ⊢
  grind

end TopicMeshConfig

inductive ConfigBuilderError where
  | maxTransmissionSizeTooSmall
  | historyLengthTooSmall
  | meshParametersInvalid
  | meshOutboundInvalid
  | unsubscribeBackoffIsZero
  | invalidProtocol

/-- The fields of a configuration that are checked. -/
structure CheckedConfig (Topic : Type) [LinearOrder Topic] (w : Nat) where
  maxTransmitSizes : OrdMap Topic (BitVec w)
  topicMeshParams : OrdMap Topic (TopicMeshConfig w)
  defaultMeshParams : TopicMeshConfig w
  historyLength : BitVec w
  historyGossip : BitVec w
  /-- In nanoseconds. -/
  unsubscribeBackoff : Nat

structure ConfigBuilder (Topic : Type) [LinearOrder Topic] (w : Nat) where
  config : CheckedConfig Topic w
  invalidProtocol : Bool

variable {Topic : Type} [LinearOrder Topic]

namespace CheckedConfig

variable (config : CheckedConfig Topic w)

def meshParams (topic : Topic) : TopicMeshConfig w := (config.topicMeshParams.get? topic).getD config.defaultMeshParams

/-- A topic with its maximal size of a message. The product wraps around. -/
def topicError (entry : Topic × BitVec w) : Option ConfigBuilderError :=
  let params := config.meshParams entry.1
  if entry.2 < 100 then some .maxTransmissionSizeTooSmall
  else if ¬params.Ordered then some .meshParametersInvalid
  else if params.meshN < params.meshOutboundMin * 2 then some .meshOutboundInvalid
  else none

variable {config}

theorem valid_iff_of_topicError {entry : Topic × BitVec w} (hn : config.topicError entry = none) :
    (config.meshParams entry.1).Valid ↔ 2 * (config.meshParams entry.1).meshOutboundMin.toNat < 2 ^ w := by
  unfold topicError at hn
  generalize config.meshParams entry.1 = params at hn ⊢
  dsimp only at hn
  split_ifs at hn with _ ho hm
  have hw : (params.meshOutboundMin * 2).toNat = 2 * params.meshOutboundMin.toNat % 2 ^ w := by
    simp [BitVec.toNat_mul, Nat.mul_comm]
  rw [BitVec.not_lt, BitVec.le_def, hw] at hm
  refine ⟨fun hv => hv.2.trans_lt (BitVec.isLt _), fun hlt => ⟨ho, ?_⟩⟩
  rwa [Nat.mod_eq_of_lt hlt] at hm

end CheckedConfig

namespace ConfigBuilder

def default : ConfigBuilder Topic w := ⟨⟨.empty, .empty, .default, 5, 3, 10000000000⟩, false⟩

variable (self : ConfigBuilder Topic w)

def meshN (meshN : BitVec w) : ConfigBuilder Topic w := { self with config.defaultMeshParams.meshN := meshN }

def build : Except ConfigBuilderError (CheckedConfig Topic w) :=
  match self.config.maxTransmitSizes.entries.findSome? self.config.topicError with
  | some error => .error error
  | none =>
    if self.config.historyLength < self.config.historyGossip then .error .historyLengthTooSmall
    else if self.config.unsubscribeBackoff / 1000000 = 0 then .error .unsubscribeBackoffIsZero
    else if self.invalidProtocol then .error .invalidProtocol
    else .ok self.config

variable {self} {config : CheckedConfig Topic w}

/-- The parameters of a built configuration are valid exactly if those are that were not checked, and no product of
the checks wrapped around. With valid parameters the heartbeat never subtracts too much. -/
theorem build_valid_iff (hb : self.build = .ok config) :
    (config.defaultMeshParams.Valid ∧ (∀ topic, (config.meshParams topic).Valid) ↔
      config.defaultMeshParams.Valid ∧ ∀ topic, match config.maxTransmitSizes.get? topic with
        | none => (config.meshParams topic).Valid
        | some _ => 2 * (config.meshParams topic).meshOutboundMin.toNat < 2 ^ w) ∧
    ∀ topic, (config.meshParams topic).Valid → ∀ retainScores len outbound,
      ∀ sub ∈ (config.meshParams topic).subtractions retainScores len outbound, sub.2 ≤ sub.1 := by
  refine ⟨and_congr_right fun _ => forall_congr' fun topic => ?_, fun _ hv => hv.1.subtractions⟩
  unfold build at hb
  split at hb
  · cases hb
  · next hn =>
    split_ifs at hb
    cases hb
    cases hg : self.config.maxTransmitSizes.get? topic with
    | none => rfl
    | some size =>
      exact CheckedConfig.valid_iff_of_topicError (List.findSome?_eq_none_iff.1 hn _ (OrdMap.get?_eq_some_iff.1 hg))

/-- Two topics have sizes of their own, and one of them a mesh. -/
def withTopics : ConfigBuilder Nat 64 :=
  { (default : ConfigBuilder Nat 64) with
    config.maxTransmitSizes := (OrdMap.empty.insert 1 200).insert 2 100
    config.topicMeshParams := OrdMap.empty.insert 1 ⟨8, 6, 12, 4⟩ }

theorem build_valid_topics : ∃ config, withTopics.build = .ok config ∧
    config.defaultMeshParams.Valid ∧ ∀ topic, (config.meshParams topic).Valid := by
  have hb : withTopics.build = .ok withTopics.config := rfl
  have hv : (TopicMeshConfig.default : TopicMeshConfig 64).Valid := ⟨by decide, by decide⟩
  have hm : ∀ topic, withTopics.config.meshParams topic = if topic = 1 then ⟨8, 6, 12, 4⟩ else .default := by
    intro topic
    simp only [CheckedConfig.meshParams, withTopics, OrdMap.get?_insert, OrdMap.get?_empty]
    split_ifs <;> rfl
  refine ⟨_, hb, (build_valid_iff hb).1.2 ⟨hv, fun topic => ?_⟩⟩
  rw [hm]
  split
  · split_ifs with ht
    · exact ⟨by decide, by decide⟩
    · exact hv
  · split_ifs <;> decide

theorem build_unchecked : ∃ config, ((default : ConfigBuilder Nat 64).meshN 3).build = .ok config ∧
    ¬ (config.meshParams 0).Valid ∧ ∃ sub ∈ (config.meshParams 0).subtractions 4 4 0, ¬ sub.2 ≤ sub.1 :=
  ⟨_, rfl, fun hv => absurd hv.1.2.1 (by decide), (3, 4), by decide, by decide⟩

end ConfigBuilder
end RustLibp2p.Gossipsub
