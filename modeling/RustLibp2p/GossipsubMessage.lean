import RustLibp2p.GossipsubProto
import RustLibp2p.Identity

/-! Validation of published messages. The signature is checked on the message as it was parsed, and the
message is forwarded from what validation kept of it. -/

namespace RustLibp2p.Gossipsub
open Bytes Protobuf Option

structure TopicHash where
  hash : String
  deriving DecidableEq

def TopicHash.fromRaw (hash : String) : TopicHash := ⟨hash⟩

def TopicHash.intoString (topic : TopicHash) : String := topic.hash

inductive ValidationMode where
  | strict | permissive | anonymous | none
  deriving DecidableEq

inductive ValidationError where
  | invalidSignature
  | emptySequenceNumber
  | invalidSequenceNumber
  | invalidPeerId
  | signaturePresent
  | sequenceNumberPresent
  | messageSourcePresent
  | transformFailed
  | messageSizeTooLargeForTopic
  deriving DecidableEq

structure RawMessage where
  source : Option PeerId
  data : List UInt8
  sequenceNumber : Option UInt64
  topic : TopicHash
  signature : Option (List UInt8)
  key : Option (List UInt8)
  validated : Bool
  deriving DecidableEq

/-- All sizes of the source are machine words; of the largest one it matters. -/
structure GossipsubCodec where
  globalMaxTransmitSize : Nat
  validationMode : ValidationMode
  maxTransmitSizes : TopicHash → Option Nat
  maxPublishMessages : Nat
  maxControlMessageSize : Nat
  size_lt : globalMaxTransmitSize < 2 ^ 64

def signingPrefix : List UInt8 := utf8Bytes "libp2p-pubsub:"

section Validation

variable [Prost]

def signatureBytes (message : Proto.Message) : List UInt8 :=
  signingPrefix ++ { message with signature := none, key := none : Proto.Message }.encode

variable {PublicKey : Type} (identity : Identity PublicKey)

/-- A key that the message brings along, or else the one within the peer id. -/
def publicKey (message : Proto.Message) (source : PeerId) : Option PublicKey :=
  match message.key.bind identity.tryDecodeProtobuf with
  | some key => some key
  | none => identity.tryDecodeProtobuf ((identity.peerIdToBytes source).drop 2)

def verifySignature (message : Proto.Message) : Bool :=
  match message.sender with
  | none => false
  | some sender =>
    match identity.peerIdFromBytes sender with
    | none => false
    | some source =>
      match message.signature with
      | none => false
      | some signature =>
        match publicKey identity message source with
        | none => false
        | some key =>
          if source ≠ identity.toPeerId key then false
          else identity.verify key (signatureBytes message) signature

/-- Which of the fields are validated, here the one that may be `present`. -/
def ValidationMode.verifies (mode : ValidationMode) (present : Bool) : Bool :=
  match mode with
  | .strict => true
  | .permissive => present
  | .anonymous | .none => false

/-- A field that an anonymous message must not have. -/
def ValidationMode.forbidden (mode : ValidationMode) (message : Proto.Message) : Option ValidationError :=
  match mode with
  | .anonymous =>
    if message.signature.isSome then some .signaturePresent
    else if message.seqno.isSome then some .sequenceNumberPresent
    else if message.sender.isSome then some .messageSourcePresent
    else Option.none
  | .strict | .permissive | .none => Option.none

def rawMessage (message : Proto.Message) (source : Option PeerId) (sequenceNumber : Option UInt64)
    (signature : Option (List UInt8)) : RawMessage where
  source
  data := message.data.getD []
  sequenceNumber
  topic := .fromRaw message.topic
  signature
  key := message.key
  validated := false

/-- A field of no bytes passes for no sequence number. -/
def parseSequenceNumber (verify : Bool) (seqno : Option (List UInt8)) : Except ValidationError (Option UInt64) :=
  if verify then
    match seqno with
    | none => .error .emptySequenceNumber
    | some seqNo =>
      if seqNo.isEmpty then .ok none
      else if seqNo.length ≠ 8 then .error .invalidSequenceNumber
      else .ok (some (UInt64.ofNat (fromBeBytes seqNo)))
  else .ok none

def parseSource (verify : Bool) (sender : Option (List UInt8)) : Except ValidationError (Option PeerId) :=
  if verify then
    match sender with
    | none => .ok none
    | some bytes =>
      if bytes.isEmpty then .ok none
      else
        match identity.peerIdFromBytes bytes with
        | some peerId => .ok (some peerId)
        | none => .error .invalidPeerId
  else .ok none

namespace GossipsubCodec

variable (codec : GossipsubCodec)

def tooLargeForTopic (message : Proto.Message) : Bool :=
  (codec.maxTransmitSizes (.fromRaw message.topic)).any fun max => max < message.encode.length

/-- One message of a call: what is passed on of it, or what is reported with which error. -/
def validate (message : Proto.Message) : Except (RawMessage × ValidationError) RawMessage :=
  if codec.tooLargeForTopic message then
    .error (rawMessage message none none none, .messageSizeTooLargeForTopic)
  else
    match codec.validationMode.forbidden message with
    | some error => .error (rawMessage message none none none, error)
    | none =>
      if codec.validationMode.verifies message.signature.isSome && !verifySignature identity message then
        .error (rawMessage message none none none, .invalidSignature)
      else
        match parseSequenceNumber (codec.validationMode.verifies message.seqno.isSome) message.seqno with
        | .error error => .error (rawMessage message none none message.signature, error)
        | .ok sequenceNumber =>
          match parseSource identity (codec.validationMode.verifies message.sender.isSome) message.sender with
          | .error error => .error (rawMessage message none sequenceNumber message.signature, error)
          | .ok source => .ok (rawMessage message source sequenceNumber message.signature)

def receive (bytes : List UInt8) : List (Except (RawMessage × ValidationError) RawMessage) :=
  match Proto.Rpc.decode bytes with
  | .ok rpc => rpc.publish.map (codec.validate identity)
  | .error _ => []

end GossipsubCodec

def RawMessage.toProto (raw : RawMessage) : Proto.Message where
  sender := raw.source.map identity.peerIdToBytes
  data := some raw.data
  seqno := raw.sequenceNumber.map fun sequenceNumber => beBytes 8 sequenceNumber.toNat
  topic := raw.topic.intoString
  signature := raw.signature
  key := raw.key

def RawMessage.forward (raw : RawMessage) : Proto.Rpc := { publish := [raw.toProto identity] }

/-- The message that was received and what was kept of it: it has an author, a sequence number and a signature
by the author, and so it has for every other strict node, if the node takes messages of that size. -/
structure SurvivesForwarding (message : Proto.Message) (raw : RawMessage) : Prop where
  signed : ∃ author key signature, raw.source = some author ∧ identity.toPeerId key = author ∧
    message.signature = some signature ∧ identity.verify key (signatureBytes message) signature = true
  numbered : raw.sequenceNumber.isSome = true
  accepted : ∀ other : GossipsubCodec, other.validationMode = .strict →
    other.tooLargeForTopic (raw.toProto identity) = false →
    ∃ kept, other.receive identity (raw.forward identity).encode = [.ok kept]

/-- The sequence number has more than no bytes, and the author's peer id is written in its own bytes. -/
structure Forwardable (message : Proto.Message) : Prop where
  data : message.data ≠ none
  seqno : message.seqno ≠ some []
  sender : ∀ bytes source, message.sender = some bytes → identity.peerIdFromBytes bytes = some source →
    identity.peerIdToBytes source = bytes

variable {identity} {message : Proto.Message} {raw : RawMessage}

theorem of_verifySignature (hv : verifySignature identity message) :
    ∃ sender key sig, message.sender = some sender ∧
      identity.peerIdFromBytes sender = some (identity.toPeerId key) ∧ message.signature = some sig ∧
      publicKey identity message (identity.toPeerId key) = some key ∧
      identity.verify key (signatureBytes message) sig := by
  unfold verifySignature at hv
  split at hv
  · cases hv
  rename_i sender hs
  split at hv
  · cases hv
  rename_i source hso
  split at hv
  · cases hv
  rename_i sig hsi
  split at hv
  · cases hv
  rename_i key hk
  split at hv
  · cases hv
  · rename_i ha
    obtain rfl := not_not.1 ha
    exact ⟨sender, key, sig, hs, hso, hsi, hk, hv⟩

theorem validate_eq_ok_iff {codec : GossipsubCodec} (hs : codec.validationMode = .strict) :
    codec.validate identity message = .ok raw ↔
      codec.tooLargeForTopic message = false ∧ verifySignature identity message ∧
        ∃ sequenceNumber source, parseSequenceNumber true message.seqno = .ok sequenceNumber ∧
          parseSource identity true message.sender = .ok source ∧
          raw = rawMessage message source sequenceNumber message.signature := by
  unfold GossipsubCodec.validate
  simp only [hs, ValidationMode.verifies, ValidationMode.forbidden]
  constructor
  · intro ha
    split at ha
    · cases ha
    rename_i hsi
    split at ha
    · cases ha
    rename_i hv
    split at ha
    · cases ha
    rename_i sequenceNumber hse
    split at ha
    · cases ha
    · rename_i source hso
      cases ha
      exact ⟨by simpa using hsi, by simpa using hv, sequenceNumber, source, hse, hso, rfl⟩
  · rintro ⟨hsi, hv, sequenceNumber, source, hse, hso, rfl⟩
    simp [hsi, hv, hse, hso]

variable {sequenceNumber : Option UInt64} {sender : List UInt8} {source : PeerId}

omit [Prost] in
theorem parseSequenceNumber_eq_ok {seqno : Option (List UInt8)}
    (hp : parseSequenceNumber true seqno = .ok sequenceNumber) : seqno = some [] ∧ sequenceNumber = none ∨
      ∃ bs, seqno = some bs ∧ bs.length = 8 ∧ sequenceNumber = some (UInt64.ofNat (fromBeBytes bs)) := by
  cases seqno with
  | none => cases hp
  | some bs =>
    simp only [parseSequenceNumber, if_true] at hp
    split at hp
    · rename_i he
      cases hp
      exact .inl ⟨congrArg some (List.isEmpty_iff.1 he), rfl⟩
    split at hp
    · cases hp
    · rename_i hlen
      cases hp
      exact .inr ⟨bs, rfl, not_not.1 hlen, rfl⟩

omit [Prost] in
theorem beBytes_of_eight {bytes : List UInt8} (hlen : bytes.length = 8) :
    beBytes 8 (UInt64.ofNat (fromBeBytes bytes)).toNat = bytes := by
  have hs := fromBeBytes_lt bytes
  rw [hlen] at hs
  have hb := beBytes_fromBeBytes bytes
  rw [UInt64.toNat_ofNat', Nat.mod_eq_of_lt (by omega)]
  rwa [hlen] at hb

omit [Prost] in
theorem parseSource_of_peerIdFromBytes (hl : identity.Lawful) (hs : identity.peerIdFromBytes sender = some source) :
    parseSource identity true (some sender) = .ok (some source) := by
  have hn : sender.isEmpty = false := by
    cases sender with
    | nil =>
      rw [hl.nonempty] at hs
      cases hs
    | cons => rfl
  simp [parseSource, hn, hs]

omit [Prost] in
theorem toProto_rawMessage (hf : Forwardable identity message) (hs : message.sender = some sender)
    (hso : identity.peerIdFromBytes sender = some source)
    (hse : parseSequenceNumber true message.seqno = .ok sequenceNumber) :
    (rawMessage message (some source) sequenceNumber message.signature).toProto identity = message := by
  obtain ⟨hd, hseo, hb⟩ := hf
  have hsa := hb sender source hs hso
  obtain ⟨he, -⟩ | ⟨_, hn, hlen, rfl⟩ := parseSequenceNumber_eq_ok hse
  · exact absurd he hseo
  obtain ⟨_, hv⟩ := ne_none_iff_exists'.mp hd
  obtain ⟨_, _, _, _, _, _⟩ := message
  subst hs hn hv
  simp only [RawMessage.toProto, rawMessage, map_some, hsa, beBytes_of_eight hlen]
  rfl

theorem receive_forward (codec : GossipsubCodec) (hf : Fits (raw.forward identity).encode) :
    codec.receive identity (raw.forward identity).encode = [codec.validate identity (raw.toProto identity)] := by
  rw [GossipsubCodec.receive, Proto.Rpc.decode_encode _ hf]
  rfl

theorem fits_unsigned (hf : Fits message.encode) :
    Fits { message with signature := none, key := none : Proto.Message }.encode := by
  unfold Fits Proto.Message.encode at hf ⊢
  simp only [List.length_append, encodeOptional, elim_none, List.length_nil] at hf ⊢
  omega

theorem fits_toProto (hf : Fits (raw.forward identity).encode) : Fits (raw.toProto identity).encode := by
  have hp : Fits (encodeBytes 2 (raw.toProto identity).encode ++ []) := hf.right.left
  exact hp.left.value

theorem eq_of_signatureBytes {other : Proto.Message} (hf : Fits other.encode)
    (hb : signatureBytes message = signatureBytes other) :
    { message with signature := none, key := none : Proto.Message } =
      { other with signature := none, key := none : Proto.Message } :=
  (Proto.Message.encode_injective (fits_unsigned hf) (List.append_cancel_left hb).symm).symm

theorem signed_alike (hl : identity.Lawful) (hbi : identity.BindsSignatures) {key : PublicKey}
    {signature : List UInt8} (ha : raw.source = some (identity.toPeerId key))
    (hk : raw.key = message.key) (hs : raw.signature = some signature)
    (hp : publicKey identity message (identity.toPeerId key) = some key)
    (hv : identity.verify key (signatureBytes message) signature)
    (hf : verifySignature identity (raw.toProto identity)) :
    signatureBytes message = signatureBytes (raw.toProto identity) := by
  obtain ⟨sender, key', signature', hse, hso, hs', hp', hv'⟩ := of_verifySignature hf
  have hb : identity.peerIdToBytes (identity.toPeerId key) = sender := by
    have hmap : raw.source.map identity.peerIdToBytes = some sender := hse
    rw [ha] at hmap
    exact some.inj hmap
  have hsa : identity.toPeerId key = identity.toPeerId key' := by
    rw [← hb, hl.parses] at hso
    exact some.inj hso
  have hke : key' = key := by
    have hr : publicKey identity (raw.toProto identity) (identity.toPeerId key) = some key := by
      rw [← hp]
      simp [publicKey, RawMessage.toProto, hk]
    rw [← hsa, hr] at hp'
    exact (some.inj hp').symm
  have hsi : signature' = signature := by
    have hfi : raw.signature = some signature' := hs'
    rw [hs] at hfi
    exact (some.inj hfi).symm
  subst hke hsi
  exact hbi _ _ _ _ hv hv'

/-- **Strict validation and forwarding.** A message that a strict node accepts is numbered and signed for every
other strict node too if it has data, a sequence number of more than no bytes and an author in its own bytes;
where a signature is valid for one message only, no other message is. -/
theorem survivesForwarding_iff (hlawful : identity.Lawful) {codec : GossipsubCodec}
    (hstrict : codec.validationMode = .strict) {message : Proto.Message} {raw : RawMessage}
    (haccepted : codec.validate identity message = .ok raw) (hfits : Fits (raw.forward identity).encode) :
    (Forwardable identity message → SurvivesForwarding identity message raw) ∧
      (identity.BindsSignatures →
        (SurvivesForwarding identity message raw ↔ Forwardable identity message)) := by
  obtain ⟨-, hv, sequenceNumber, source, hs, hso, rfl⟩ := (validate_eq_ok_iff hstrict).1 haccepted
  obtain ⟨sender, key, sig, hse, hp, hsi, hpu, hva⟩ := of_verifySignature hv
  obtain rfl : source = some (identity.toPeerId key) := by
    rw [hse, parseSource_of_peerIdFromBytes hlawful hp] at hso
    exact (Except.ok.inj hso).symm
  have hsufficient : Forwardable identity message → SurvivesForwarding identity message
      (rawMessage message (some (identity.toPeerId key)) sequenceNumber message.signature) := by
    intro hfo
    have hpr := toProto_rawMessage hfo hse hp hs
    refine ⟨⟨_, key, sig, rfl, rfl, hsi, hva⟩, ?_, ?_⟩
    · obtain ⟨he, -⟩ | ⟨bs, -, -, rfl⟩ := parseSequenceNumber_eq_ok hs
      · exact absurd he hfo.seqno
      · rfl
    intro _ hot hsz
    rw [hpr] at hsz
    rw [receive_forward _ hfits, hpr]
    exact ⟨_, congrArg (fun res => [res]) ((validate_eq_ok_iff hot).2 ⟨hsz, hv, sequenceNumber, _, hs, hso, rfl⟩)⟩
  refine ⟨hsufficient, fun hbi => ⟨?_, hsufficient⟩⟩
  rintro ⟨-, hn, ho⟩
  let unlimited : GossipsubCodec := { codec with maxTransmitSizes := fun _ => none }
  have hu : unlimited.validationMode = .strict := hstrict
  obtain ⟨_, hk⟩ := ho unlimited hu rfl
  rw [receive_forward _ hfits] at hk
  obtain ⟨-, hf, -⟩ := (validate_eq_ok_iff hu).1 (List.cons.inj hk).1
  have hb := signed_alike hlawful hbi rfl rfl hsi hpu hva hf
  have hsa := eq_of_signatureBytes (fits_toProto hfits) hb
  refine ⟨?_, ?_, ?_⟩
  · intro hno
    have hd : message.data = some (message.data.getD []) := congrArg Proto.Message.data hsa
    rw [hno] at hd
    cases hd
  · intro he
    rw [he] at hs
    cases hs
    cases hn
  · intro bs _ hb' ha
    have hfi : message.sender = some (identity.peerIdToBytes (identity.toPeerId key)) :=
      congrArg Proto.Message.sender hsa
    rw [hse] at hb' hfi
    cases hb'
    cases hp.symm.trans ha
    exact (some.inj hfi).symm

end Validation

/-- A message by the peer whose key is 7, which it brings along. -/
def published (data seqno : Option (List UInt8)) : Proto.Message where
  sender := some [0, 1, 7]
  data
  seqno
  topic := "news"
  signature := some [7]
  key := some [7]

/-- The author has signed this message and no other. -/
def signer (message : Proto.Message) : Identity UInt8 := .small [(7, signatureBytes message)]

def strictCodec : GossipsubCodec := ⟨65536, .strict, fun _ => none, 5000, 16384, by decide⟩

def numbered : Proto.Message := published (some [1]) (some [0, 0, 0, 0, 0, 0, 0, 5])

/-- What a node keeps of a message by the author. -/
def keptOf (message : Proto.Message) (sequenceNumber : Option UInt64) : RawMessage :=
  rawMessage message (some ((signer message).toPeerId 7)) sequenceNumber (some [7])

theorem survivesForwarding_numbered : strictCodec.validate (signer numbered) numbered = .ok (keptOf numbered (some 5)) ∧
      SurvivesForwarding (signer numbered) numbered (keptOf numbered (some 5)) := by
  have ha : strictCodec.validate (signer numbered) numbered = .ok (keptOf numbered (some 5)) := by decide +kernel
  have hf : Fits ((keptOf numbered (some 5)).forward (signer numbered)).encode := by
    unfold Fits
    decide +kernel
  refine ⟨ha, ((survivesForwarding_iff (Identity.small_lawful _) rfl ha hf).2
    (Identity.small_bindsSignatures _)).2 ⟨?_, ?_, ?_⟩⟩
  · decide
  · decide
  · intro _ _ hb hs
    cases hb
    cases hs
    rfl

/-- A message whose sequence number has no bytes is accepted without one, and a message without data is
accepted with empty data. When they are forwarded, neither is what its author has signed. -/
theorem not_survivesForwarding_unnumbered : let unnumbered := published (some [1]) (some [])
    let dataless := published none (some [0, 0, 0, 0, 0, 0, 0, 5])
    strictCodec.validate (signer unnumbered) unnumbered = .ok (keptOf unnumbered none) ∧
      strictCodec.receive (signer unnumbered) ((keptOf unnumbered none).forward (signer unnumbered)).encode =
        [.error (rawMessage ((keptOf unnumbered none).toProto (signer unnumbered)) none none none, .invalidSignature)] ∧
      strictCodec.validate (signer dataless) dataless = .ok (keptOf dataless (some 5)) ∧
      strictCodec.receive (signer dataless) ((keptOf dataless (some 5)).forward (signer dataless)).encode =
        [.error (rawMessage ((keptOf dataless (some 5)).toProto (signer dataless)) none none none,
          .invalidSignature)] := by
  decide +kernel

end RustLibp2p.Gossipsub
