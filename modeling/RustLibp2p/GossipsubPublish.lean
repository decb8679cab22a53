import Mathlib.Data.Finset.Card
import RustLibp2p.GossipsubCodec

/-! Publishing a message: what is checked before it is sent, to whom it goes, and which peers are remembered for a topic
that the node itself does not follow. -/

namespace RustLibp2p.Gossipsub
open Protobuf Bytes

variable {PublicKey MessageId : Type}

/-- How the author of published messages is named. A key may fail to sign. -/
inductive PublishConfig where
  | signing (sign : List UInt8 → Option (List UInt8)) (author : PeerId) (inlineKey : Option (List UInt8))
  | author (peerId : PeerId)
  | randomAuthor
  | anonymous

inductive PublishError where
  | duplicate
  | signingError
  | noPeersSubscribedToTopic
  | messageTooLarge
  | transformFailed
  | allQueuesFull (recipients : Nat)
  deriving DecidableEq

/-- Every connection gets its codec from the same values. -/
structure Config (MessageId : Type) where
  protocol : GossipsubCodec
  floodPublish : Bool
  meshN : TopicHash → Nat
  publishConfig : PublishConfig
  outboundTransform : TopicHash → List UInt8 → Option (List UInt8)
  messageId : Option PeerId → List UInt8 → Option UInt64 → TopicHash → MessageId

/-- A random choice of up to so many elements. -/
structure Sampling (α : Type) where
  chooseMultiple : Nat → Finset α → Finset α
  subset : ∀ amount from_, chooseMultiple amount from_ ⊆ from_
  card : ∀ amount from_, (chooseMultiple amount from_).card = min amount from_.card

/-- What a call finds: the peers, the meshes, the messages seen, the next sequence number or a random one, a random
author, and which queues have room for the message. -/
structure Surroundings (MessageId : Type) where
  connectedPeers : Finset PeerId
  topics : PeerId → Finset TopicHash
  floodsub : PeerId → Bool
  explicitPeers : Finset PeerId
  belowPublishThreshold : PeerId → Bool
  mesh : TopicHash → Option (Finset PeerId)
  duplicateCache : MessageId → Bool
  sequenceNumber : UInt64
  randomPeer : PeerId
  sendMessage : PeerId → Bool
  rng : Sampling PeerId

def Fanout := TopicHash → Option (Finset PeerId)

def Fanout.peers (fanout : Fanout) (topic : TopicHash) : Finset PeerId := (fanout topic).getD ∅

def Fanout.insert (fanout : Fanout) (topic : TopicHash) (peers : Finset PeerId) : Fanout :=
  fun other => if other = topic then some peers else fanout other

def GossipsubCodec.maxTransmitSizeForTopic (codec : GossipsubCodec) (topic : TopicHash) : Nat :=
  (codec.maxTransmitSizes topic).getD codec.globalMaxTransmitSize

section

variable [Prost]

namespace Config

variable (config : Config MessageId) (identity : Identity PublicKey) (around : Surroundings MessageId)
  (fanout : Fanout) (topic : TopicHash)

def buildRawMessage (data : List UInt8) : Option RawMessage :=
  let message : RawMessage := ⟨none, data, none, topic, none, none, true⟩
  match config.publishConfig with
  | .signing sign author inlineKey =>
    let unsigned := { message with source := some author, sequenceNumber := some around.sequenceNumber }
    (sign (signatureBytes (unsigned.toProto identity))).map fun signature =>
      { unsigned with signature := some signature, key := inlineKey }
  | .author peerId => some { message with source := some peerId, sequenceNumber := some around.sequenceNumber }
  | .randomAuthor =>
    some { message with source := some around.randomPeer, sequenceNumber := some around.sequenceNumber }
  | .anonymous => some message

def prepare (data : List UInt8) : Except PublishError (MessageId × RawMessage) :=
  match config.outboundTransform topic data with
  | none => .error .transformFailed
  | some transformed =>
    if config.protocol.maxTransmitSizeForTopic topic < transformed.length then .error .messageTooLarge
    else
      match config.buildRawMessage identity around topic transformed with
      | none => .error .signingError
      | some raw =>
        let msgId := config.messageId raw.source data raw.sequenceNumber raw.topic
        if around.duplicateCache msgId then .error .duplicate else .ok (msgId, raw)

def publishPeers : Finset PeerId :=
  around.connectedPeers.filter fun peer =>
    topic ∈ around.topics peer ∧ (peer ∈ around.explicitPeers ∨ around.belowPublishThreshold peer = false)

/-- The peers that a message goes to, and those that are remembered. -/
def filterPublishCandidates (candidates : Finset PeerId) : Finset PeerId × Fanout :=
  if config.floodPublish then (candidates, fanout)
  else
    let recipients := candidates.filter fun peer => peer ∈ around.explicitPeers ∨ around.floodsub peer
    match around.mesh topic with
    | some mesh =>
      let meshPeers := candidates ∩ mesh
      let neededExtraPeers := config.meshN topic - meshPeers.card
      let extras :=
        if 0 < neededExtraPeers then
          around.rng.chooseMultiple neededExtraPeers (candidates \ (meshPeers ∪ recipients))
        else ∅
      (recipients ∪ extras ∪ meshPeers, fanout)
    | none =>
      let fanoutPeers := fanout.peers topic ∩ candidates
      let neededExtraPeers := config.meshN topic - fanoutPeers.card
      let recipients := recipients ∪ fanoutPeers
      if 0 < neededExtraPeers then
        let newPeers := around.rng.chooseMultiple neededExtraPeers (candidates \ recipients)
        (recipients ∪ newPeers, fanout.insert topic newPeers)
      else (recipients, fanout)

/-- The id and the message that were sent, or why it was not, and the peers that are remembered. -/
def publish (data : List UInt8) : Except PublishError (MessageId × RawMessage) × Fanout :=
  match config.prepare identity around topic data with
  | .error error => (.error error, fanout)
  | .ok published =>
    let (recipients, fanout) :=
      config.filterPublishCandidates around fanout topic (publishPeers around topic)
    if recipients = ∅ then (.error .noPeersSubscribedToTopic, fanout)
    else if ∀ peer ∈ recipients, around.sendMessage peer = false then
      (.error (.allQueuesFull recipients.card), fanout)
    else (.ok published, fanout)

end Config

/-- No more peers are remembered for a topic than its mesh should have. -/
def Fanout.Bounded (config : Config MessageId) (fanout : Fanout) : Prop :=
  ∀ topic, (fanout.peers topic).card ≤ config.meshN topic

variable {config : Config MessageId} {identity : Identity PublicKey} {around : Surroundings MessageId}
  {fanout : Fanout} {topic : TopicHash}

omit [Prost] in
theorem Fanout.peers_insert (fanout : Fanout) (topic other : TopicHash) (peers : Finset PeerId) :
    (fanout.insert topic peers).peers other = if other = topic then peers else fanout.peers other := by
  unfold Fanout.insert Fanout.peers
  dsimp only
  split_ifs <;> rfl

omit [Prost] in
/-- Where there are too few peers left, others take the place of all of them. -/
theorem filterPublishCandidates_cases (candidates : Finset PeerId) :
    ((config.filterPublishCandidates around fanout topic candidates).2 = fanout ∧
      (around.mesh topic = none → config.floodPublish ∨
        config.meshN topic ≤ (fanout.peers topic ∩ candidates).card)) ∨
    (∃ peers, (config.filterPublishCandidates around fanout topic candidates).2 = fanout.insert topic peers ∧
      Disjoint (fanout.peers topic ∩ candidates) peers ∧ peers.card ≤ config.meshN topic ∧
      config.floodPublish = false ∧ (fanout.peers topic ∩ candidates).card < config.meshN topic) := by
  unfold Config.filterPublishCandidates
  split_ifs with hf
  · exact .inl ⟨rfl, fun _ => .inl hf⟩
  split
  · next hm => exact .inl ⟨rfl, fun hn => nomatch hm.symm.trans hn⟩
  dsimp only
  split_ifs with hn
  · refine .inr ⟨_, rfl, ?_, ?_, Bool.eq_false_iff.2 hf, by omega⟩
    · refine Finset.disjoint_of_subset_right (around.rng.subset _ _) ?_
      exact Finset.disjoint_sdiff.mono_left Finset.subset_union_right
    · rw [around.rng.card]
      omega
  · exact .inl ⟨rfl, fun _ => .inr (by omega)⟩

theorem publish_fanout (data : List UInt8) :
    (config.publish identity around fanout topic data).2 = match config.prepare identity around topic data with
      | .error _ => fanout
      | .ok _ => (config.filterPublishCandidates around fanout topic (Config.publishPeers around topic)).2 := by
  unfold Config.publish
  split
  · rfl
  · dsimp only
    split_ifs <;> rfl

theorem Fanout.Bounded.publish (hb : fanout.Bounded config) (data : List UInt8) :
    (config.publish identity around fanout topic data).2.Bounded config := by
  rw [publish_fanout]
  split
  · exact hb
  rcases filterPublishCandidates_cases (Config.publishPeers around topic) with ⟨hs, -⟩ | ⟨peers, hs, -, hc, -⟩
  · rwa [hs]
  intro other
  rw [hs, Fanout.peers_insert]
  split_ifs with ho
  · exact ho ▸ hc
  · exact hb other

structure PublishCall (MessageId : Type) where
  around : Surroundings MessageId
  topic : TopicHash
  data : List UInt8

/-- The fanout after calls between two heartbeats. -/
def Fanout.after (config : Config MessageId) (identity : Identity PublicKey) (fanout : Fanout)
    (calls : List (PublishCall MessageId)) : Fanout :=
  calls.foldl (fun fanout call => (config.publish identity call.around fanout call.topic call.data).2) fanout

theorem Fanout.Bounded.after (hb : fanout.Bounded config) (calls : List (PublishCall MessageId)) :
    (fanout.after config identity calls).Bounded config := by
  induction calls generalizing fanout with
  | nil => exact hb
  | cons call calls ih => exact ih (hb.publish call.data)

/-- **Fanout.** After any calls, a call for a topic without a mesh keeps the remembered peers that are still candidates
if and only if it sends nothing, sends to all, or finds none of them or as many as the mesh should have. The fanout
never outgrows the mesh. -/
theorem fanout_kept_iff (start : Fanout) (hbounded : start.Bounded config) (calls : List (PublishCall MessageId))
    (call : PublishCall MessageId) (hmesh : call.around.mesh call.topic = none) :
    let fanout := start.after config identity calls
    let next := start.after config identity (calls ++ [call])
    let kept := fanout.peers call.topic ∩ Config.publishPeers call.around call.topic
    (kept ⊆ next.peers call.topic ↔ (∃ err, config.prepare identity call.around call.topic call.data = .error err) ∨
      config.floodPublish = true ∨ kept = ∅ ∨ config.meshN call.topic ≤ kept.card) ∧ next.Bounded config := by
  intro fanout next kept
  refine ⟨?_, hbounded.after _⟩
  have hnext : next = (config.publish identity call.around fanout call.topic call.data).2 := List.foldl_concat ..
  have hsub : kept ⊆ fanout.peers call.topic := Finset.inter_subset_left
  rw [hnext, publish_fanout]
  split
  · next err he => exact ⟨fun _ => .inl ⟨err, he⟩, fun _ => hsub⟩
  · next hp =>
    rcases filterPublishCandidates_cases (Config.publishPeers call.around call.topic) with
      ⟨hs, hn⟩ | ⟨peers, hs, hd, -, hf, hc⟩
    · rw [hs]
      exact ⟨fun _ => .inr ((hn hmesh).imp_right .inr), fun _ => hsub⟩
    rw [hs, Fanout.peers_insert, if_pos rfl, hp, hf]
    have hnone : kept ⊆ peers ↔ kept = ∅ := by
      refine ⟨fun hk => ?_, fun hk => hk ▸ Finset.empty_subset _⟩
      exact (Finset.disjoint_self_iff_empty _).1 (hd.mono_right hk)
    rw [hnone]
    constructor
    · exact fun hk => .inr (.inr (.inl hk))
    · rintro (⟨_, ⟨⟩⟩ | ⟨⟨⟩⟩ | hk | hk)
      · exact hk
      · exact absurd hk (Nat.not_le.2 hc)

end

/-- All the elements if they are no more than asked for. -/
noncomputable def Sampling.arbitrary {α : Type} : Sampling α where
  chooseMultiple amount all :=
    if all.card ≤ amount then all else (Finset.exists_subset_card_eq (Nat.min_le_right amount all.card)).choose
  subset amount all := by
    split_ifs
    · exact Finset.Subset.refl _
    · exact (Finset.exists_subset_card_eq (Nat.min_le_right amount all.card)).choose_spec.1
  card amount all := by
    split_ifs with hc
    · exact (Nat.min_eq_right hc).symm
    · exact (Finset.exists_subset_card_eq (Nat.min_le_right amount all.card)).choose_spec.2

def noFanout : Fanout := fun _ => none

/-- A node that publishes without naming an author, with a mesh of two peers. -/
def anonymousConfig (protocol : GossipsubCodec) : Config (List UInt8) :=
  ⟨protocol, false, fun _ => 2, .anonymous, fun _ data => some data, fun _ data _ _ => data⟩

def peerOf (byte : UInt8) : PeerId := (Identity.small []).toPeerId byte

/-- A node that follows no topic, with peers that follow the topic "news". -/
noncomputable def follower (peers : Finset PeerId) : Surroundings (List UInt8) where
  connectedPeers := peers
  topics _ := {⟨"news"⟩}
  floodsub _ := false
  explicitPeers := ∅
  belowPublishThreshold _ := false
  mesh _ := none
  duplicateCache _ := false
  sequenceNumber := 1
  randomPeer := peerOf 0
  sendMessage _ := true
  rng := .arbitrary

/-- The first peer is remembered. When there is a second one, it is remembered instead, although the first one is still
there. -/
theorem fanout_dropped : let config := anonymousConfig strictCodec
    let call := fun peers => (⟨follower peers, ⟨"news"⟩, [1]⟩ : PublishCall (List UInt8))
    (noFanout.after config (.small []) [call {peerOf 1}]).peers ⟨"news"⟩ = {peerOf 1} ∧
    (noFanout.after config (.small []) [call {peerOf 1}, call {peerOf 1, peerOf 2}]).peers ⟨"news"⟩ = {peerOf 2} := by
  decide +kernel

/-- Two peers are remembered, and they still are when there is a third one. -/
theorem fanout_kept_full : let config := anonymousConfig strictCodec
    let call := fun peers => (⟨follower peers, ⟨"news"⟩, [1]⟩ : PublishCall (List UInt8))
    (noFanout.after config (.small []) [call {peerOf 1, peerOf 2}]).peers ⟨"news"⟩ = {peerOf 1, peerOf 2} ∧
    {peerOf 1, peerOf 2} ⊆ (noFanout.after config (.small [])
      ([call {peerOf 1, peerOf 2}] ++ [call {peerOf 1, peerOf 2, peerOf 3}])).peers ⟨"news"⟩ := by
  intro config call
  refine ⟨by decide +kernel, Finset.Subset.trans ?_ ((fanout_kept_iff noFanout (fun _ => Nat.zero_le _)
    [call {peerOf 1, peerOf 2}] (call {peerOf 1, peerOf 2, peerOf 3}) rfl).1.2 (.inr (.inr (.inr ?_))))⟩
  · decide +kernel
  · decide +kernel

/-! ### The size of a message -/

section

open GossipsubCodec

variable [Prost]

/-- The bytes of a field: its key, the length of the value and the value. -/
def fieldLen (length : Nat) : Nat := 1 + (Prost.encodeVarint length).length + length

def RawMessage.rawProtobufLen (identity : Identity PublicKey) (raw : RawMessage) : Nat :=
  (raw.source.elim 0 fun source => fieldLen (identity.peerIdToBytes source).length) + (fieldLen raw.data.length +
    ((raw.sequenceNumber.elim 0 fun _ => fieldLen 8) + (fieldLen (utf8Bytes raw.topic.intoString).length +
      ((raw.signature.elim 0 fun signature => fieldLen signature.length) +
        raw.key.elim 0 fun key => fieldLen key.length))))

/-- The lengths of what is put around a payload, where it is there. -/
structure Envelope where
  author : Option Nat
  sequenceNumber : Option Nat
  signature : Option Nat
  key : Option Nat

/-- What is put around a payload, with a random author of `random` bytes or a signature of `signature` bytes. -/
def PublishConfig.envelope (identity : Identity PublicKey) (random signature : Nat) : PublishConfig → Envelope
  | .signing _ source inlineKey =>
    ⟨some (identity.peerIdToBytes source).length, some 8, some signature, inlineKey.map List.length⟩
  | .author peerId => ⟨some (identity.peerIdToBytes peerId).length, some 8, none, none⟩
  | .randomAuthor => ⟨some random, some 8, none, none⟩
  | .anonymous => ⟨none, none, none, none⟩

/-- The length of a message with a payload and a topic of these lengths. -/
def Envelope.messageLen (envelope : Envelope) (payload topic : Nat) : Nat :=
  envelope.author.elim 0 fieldLen + (fieldLen payload + (envelope.sequenceNumber.elim 0 fieldLen +
    (fieldLen topic + (envelope.signature.elim 0 fieldLen + envelope.key.elim 0 fieldLen))))

/-- The length of a call with one message of this length, behind its own length. -/
def frameLen [UnsignedVarint] (message : Nat) : Nat :=
  (UnsignedVarint.encodeUsize (fieldLen message)).length + fieldLen message

variable {identity : Identity PublicKey} {config : Config MessageId} {raw : RawMessage}

theorem length_encodeBytes {tag : Nat} (ht : tag < 16) (v : List UInt8) :
    (encodeBytes tag v).length = fieldLen v.length := by
  have hk : (encodeKey tag .lengthDelimited).length = 1 := by
    apply Prost.length_encodeVarint
    simp only [WireType.code]
    omega
  rw [encodeBytes, List.length_append, List.length_append, hk, fieldLen, Nat.add_assoc]

theorem length_encodeOptional {tag : Nat} (ht : tag < 16) (v : Option (List UInt8)) :
    (encodeOptional (encodeBytes tag) v).length = v.elim 0 fun bs => fieldLen bs.length := by
  cases v with
  | none => rfl
  | some bs => exact length_encodeBytes ht bs

theorem length_toProto (raw : RawMessage) : (raw.toProto identity).encode.length = raw.rawProtobufLen identity := by
  unfold Proto.Message.encode RawMessage.rawProtobufLen RawMessage.toProto
  simp [List.length_append, length_encodeOptional, encodeString, length_encodeBytes, Nat.reduceLT]
  cases raw.source <;> cases raw.sequenceNumber <;> simp

/-- The node that is sent the message finds neither the call nor the message too large. -/
structure PassesSizeChecks [UnsignedVarint] (identity : Identity PublicKey) (codec : GossipsubCodec)
    (raw : RawMessage) : Prop where
  global : ∀ length max, codec.decode identity (encode (raw.forward identity)) ≠ .error (.exceedsMaximum length max)
  topic : codec.tooLargeForTopic (raw.toProto identity) = false

theorem encode_forward (raw : RawMessage) :
    (raw.forward identity).encode = encodeBytes 2 (raw.toProto identity).encode := by
  simp [RawMessage.forward, Proto.Rpc.encode, encodeOptional]

theorem length_forward [UnsignedVarint] (raw : RawMessage) :
    (encode (raw.forward identity)).length = frameLen (raw.rawProtobufLen identity) := by
  rw [GossipsubCodec.encode, ProstCodec.frame, encode_forward, List.length_append, length_encodeBytes (by decide),
    length_toProto]
  rfl

/-- A call with one message is not too large for a codec that takes its bytes. -/
theorem decode_forward_ne [UnsignedVarint] {codec : GossipsubCodec}
    (hl : (encode (raw.forward identity)).length ≤ codec.globalMaxTransmitSize) (length max : Nat) :
    codec.decode identity (encode (raw.forward identity)) ≠ .error (.exceedsMaximum length max) := by
  have hs : (raw.forward identity).encode.length ≤ codec.globalMaxTransmitSize := by
    rw [GossipsubCodec.encode, ProstCodec.frame, List.length_append] at hl
    omega
  by_cases hp : 1 ≤ codec.maxPublishMessages
  · have hw : codec.Within (raw.forward identity) := ⟨hs, hp, Nat.zero_le _⟩
    rw [← List.append_nil (encode _)] at hl ⊢
    rw [(codec.limited identity).whole ⟨_, hw⟩ [] hl]
    rintro ⟨⟩
  · -- the codec takes no messages at all, which is another error
    have hf : Fits (raw.forward identity).encode := Nat.lt_of_le_of_lt hs codec.size_lt
    have hn := consumeMessagePrefix_encode hf []
    rw [encode_forward] at hf hn
    have hr := reads_consumeField (by decide) hf []
    have he : ¬ (encodeBytes 2 (raw.toProto identity).encode).isEmpty := by
      rw [List.isEmpty_iff]
      exact encodeBytes_ne_nil (by decide)
    rw [List.append_nil] at hn hr
    rw [GossipsubCodec.decode, validateRpcLimits, if_neg (Nat.not_lt.2 hl), hn]
    dsimp only
    rw [validateFields, if_neg he, hr]
    dsimp only
    rw [countField, if_pos (by omega)]
    rintro ⟨⟩

variable {around : Surroundings MessageId} {fanout : Fanout} {topic : TopicHash} {data payload : List UInt8}
  {published : MessageId × RawMessage}

theorem build_of_publish (hok : (config.publish identity around fanout topic data).1 = .ok published)
    (ht : config.outboundTransform topic data = some payload) :
    config.buildRawMessage identity around topic payload = some published.2 := by
  unfold Config.publish at hok
  split at hok
  · cases hok
  · next hp =>
    dsimp only at hok
    split_ifs at hok
    cases hok
    unfold Config.prepare at hp
    rw [ht] at hp
    dsimp only at hp
    split_ifs at hp
    split at hp
    · cases hp
    · next hb =>
      split_ifs at hp
      cases hp
      exact hb

theorem rawProtobufLen_of_build {signature : Nat} (hb : config.buildRawMessage identity around topic payload = some raw)
    (hs : ∀ bytes ∈ raw.signature, bytes.length = signature) : raw.topic = topic ∧ raw.rawProtobufLen identity =
      (config.publishConfig.envelope identity (identity.peerIdToBytes around.randomPeer).length signature).messageLen
        payload.length (utf8Bytes topic.intoString).length := by
  unfold Config.buildRawMessage at hb
  cases hc : config.publishConfig with
  | signing sign author inlineKey =>
    rw [hc] at hb
    obtain ⟨bytes, -, rfl⟩ := Option.map_eq_some_iff.1 hb
    refine ⟨rfl, ?_⟩
    rw [← hs bytes rfl]
    cases inlineKey <;> rfl
  | author | randomAuthor | anonymous =>
    rw [hc] at hb
    cases hb
    exact ⟨rfl, rfl⟩

/-- A published message passes the size checks of a node with the same configuration if and only if the payload, the
topic, and the author, the sequence number, the signature and the key that are put around it are together, with the
header of each, within the maximum of the topic, and with the two lengths before them within the global one. -/
theorem publish_accepted_iff [UnsignedVarint] {signature : Nat}
    (hok : (config.publish identity around fanout topic data).1 = .ok published)
    (htransform : config.outboundTransform topic data = some payload)
    (hsignature : ∀ bytes ∈ published.2.signature, bytes.length = signature) :
    let length := (config.publishConfig.envelope identity (identity.peerIdToBytes around.randomPeer).length
      signature).messageLen payload.length (utf8Bytes topic.intoString).length
    PassesSizeChecks identity config.protocol published.2 ↔
      (∀ max, config.protocol.maxTransmitSizes topic = some max → length ≤ max) ∧
      frameLen length ≤ config.protocol.globalMaxTransmitSize := by
  intro length
  obtain ⟨htopic, hlen⟩ : _ ∧ _ = length := rawProtobufLen_of_build (build_of_publish hok htransform) hsignature
  have ht : config.protocol.tooLargeForTopic (published.2.toProto identity) = false ↔
      ∀ max, config.protocol.maxTransmitSizes topic = some max → length ≤ max := by
    rw [tooLargeForTopic, show TopicHash.fromRaw (published.2.toProto identity).topic = topic from htopic,
      length_toProto, hlen]
    cases config.protocol.maxTransmitSizes topic <;> simp
  rw [← ht, ← hlen, ← length_forward]
  refine ⟨fun hp => ⟨hp.topic, ?_⟩, fun hp => ⟨decode_forward_ne hp.2, hp.1⟩⟩
  by_contra hl
  refine hp.global (encode (published.2.forward identity)).length config.protocol.globalMaxTransmitSize ?_
  rw [GossipsubCodec.decode, validateRpcLimits, if_pos (Nat.lt_of_not_le hl)]

end

def anonymousMessage (data : List UInt8) : RawMessage := ⟨none, data, none, ⟨"news"⟩, none, none, true⟩

/-- A signed message with its key, on a topic that has a maximum of its own. -/
theorem publish_accepted_signed : let codec := { strictCodec with maxTransmitSizes := fun _ => some 31 }
    let config := { anonymousConfig codec with publishConfig := .signing (fun _ => some [7, 8]) (peerOf 1) (some [9]) }
    let message : RawMessage := ⟨some (peerOf 1), [1], some 1, ⟨"news"⟩, some [7, 8], some [9], true⟩
    (config.publish (.small []) (follower {peerOf 1}) noFanout ⟨"news"⟩ [1]).1 = .ok ([1], message) ∧
      PassesSizeChecks (.small []) codec message := by
  intro codec config message
  have hok : (config.publish (.small []) (follower {peerOf 1}) noFanout ⟨"news"⟩ [1]).1 = .ok ([1], message) := by
    decide +kernel
  refine ⟨hok, (publish_accepted_iff hok rfl fun _ hb => congrArg List.length (Option.some.inj hb).symm).2 ⟨?_, ?_⟩⟩
  · rintro _ ⟨⟩
    decide +kernel
  · decide +kernel

/-- The topic has a maximum of its own, and the data take all of it. -/
theorem published_too_large : let codec := { strictCodec with maxTransmitSizes := fun _ => some 100 }
    let data := List.replicate 100 1
    ((anonymousConfig codec).publish (.small []) (follower {peerOf 1}) noFanout ⟨"news"⟩ data).1 =
        .ok (data, anonymousMessage data) ∧ ¬ PassesSizeChecks (.small []) codec (anonymousMessage data) :=
  ⟨by decide +kernel, fun hp => absurd hp.topic (by decide +kernel)⟩

end RustLibp2p.Gossipsub
