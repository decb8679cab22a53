import RustLibp2p.GossipsubMessage
import RustLibp2p.StreamDecode

/-! The gossipsub codec. Before a frame is decoded a first pass over the buffer checks how much there is
of it, how many messages the call publishes and how large its control part is. -/

namespace RustLibp2p.Gossipsub
open Protobuf Parsing StreamDecode UnsignedVarint List Identity

inductive CodecError where
  | exceedsMaximum (messageLength max : Nat)
  | varint (error : Varint.Error)
  | protobuf (error : DecodeError)
  | tooManyPublishMessages
  | controlSizeExceeded
  deriving DecidableEq

/-- The texts of the errors; `describe` gives those of the protobuf crate. -/
def CodecError.message (describe : DecodeError → String) (error : CodecError) : String :=
  "Failed to encode/decode message: " ++ match error with
    | .exceedsMaximum messageLength max => s!"message with {messageLength}b exceeds maximum of {max}b"
    | .varint error => error.message
    | .protobuf error => describe error
    | .tooManyPublishMessages => "too many publish messages"
    | .controlSizeExceeded => "rpc control size exceeds max control message size"

/-! ### The length-delimited codec for any kind of message -/

namespace ProstCodec

variable [Prost] [UnsignedVarint] {α : Type}

def frame (body : List UInt8) : List UInt8 := encodeUsize body.length ++ body

def decode (maxMessageLenBytes : Nat) (decodeBody : List UInt8 → Except DecodeError α) (src : List UInt8) :
    Except CodecError (Option (α × List UInt8)) :=
  match decodeUsize src with
  | .error .insufficient => .ok none
  | .error error => .error (.varint error)
  | .ok (messageLength, remaining) =>
    if maxMessageLenBytes < messageLength then .error (.exceedsMaximum messageLength maxMessageLenBytes)
    else
      let varintLength := src.length - remaining.length
      if 2 ^ 64 ≤ messageLength + varintLength ∨ src.length < messageLength + varintLength then .ok none
      else
        match decodeBody (remaining.take messageLength) with
        | .error error => .error (.protobuf error)
        | .ok message => .ok (some (message, remaining.drop messageLength))

/-- The bytes of the message, if the buffer holds all of them. -/
def consumeMessagePrefix (buf : List UInt8) : Except CodecError (Option (List UInt8)) :=
  match decodeUsize buf with
  | .error .insufficient => .ok none
  | .error error => .error (.varint error)
  | .ok (messageLength, remaining) =>
    if remaining.length < messageLength then .ok none else .ok (some (remaining.take messageLength))

/-- The key and the value of a field; what is left of it is its number. -/
def consumeField : Reader Nat := do
  let (tag, wireType) ← decodeKey
  (fun _ => tag) <$> skipField Proto.recursionLimit wireType tag

end ProstCodec

open ProstCodec

abbrev MessageId := List UInt8

inductive SubscriptionAction where
  | subscribe | unsubscribe
  deriving DecidableEq

structure SubscriptionOpts where
  requestsPartial : Bool
  supportsPartial : Bool
  deriving DecidableEq

structure Subscription where
  action : SubscriptionAction
  topicHash : TopicHash
  options : SubscriptionOpts
  deriving DecidableEq

structure PeerInfo where
  peerId : Option PeerId
  deriving DecidableEq

structure Extensions where
  partialMessages : Option Bool
  deriving DecidableEq

inductive ControlAction where
  | ihave (topicHash : TopicHash) (messageIds : List MessageId)
  | iwant (messageIds : List MessageId)
  | graft (topicHash : TopicHash)
  | prune (topicHash : TopicHash) (peers : List PeerInfo) (backoff : Option UInt64)
  | idontwant (messageIds : List MessageId)
  | extensions (extensions : Option Extensions)
  deriving DecidableEq

structure RpcIn where
  messages : List RawMessage
  subscriptions : List Subscription
  controlMsgs : List ControlAction
  deriving DecidableEq

/-- Of the handler's events, the one that the codec gives. -/
structure HandlerEvent where
  rpc : RpcIn
  invalidMessages : List (RawMessage × ValidationError)
  deriving DecidableEq

def topicOf (topicId : Option String) : TopicHash := .fromRaw (topicId.getD "")

def subscriptionOf (sub : Proto.SubOpts) : Subscription where
  action := if some true = sub.subscribe then .subscribe else .unsubscribe
  topicHash := topicOf sub.topicId
  options := ⟨sub.requestsPartial.getD false, sub.supportsPartial.getD false⟩

section Codec

variable [Prost] {PublicKey : Type} (identity : Identity PublicKey)

/-- Peers with an invalid id are left out. -/
def pruneOf (prune : Proto.ControlPrune) : ControlAction :=
  .prune (topicOf prune.topicId)
    (prune.peers.filterMap fun info => (info.peerId.bind identity.peerIdFromBytes).map fun peer => ⟨some peer⟩)
    prune.backoff

/-- By kind, in a fixed order; the last one is always there. -/
def controlMsgsOf (control : Proto.ControlMessage) : List ControlAction :=
  control.ihave.map (fun ihave => .ihave (topicOf ihave.topicId) ihave.messageIds) ++
    control.iwant.map (fun iwant => .iwant iwant.messageIds) ++
    control.graft.map (fun graft => .graft (topicOf graft.topicId)) ++
    control.prune.map (pruneOf identity) ++
    control.idontwant.map (fun idontwant => .idontwant idontwant.messageIds) ++
    [.extensions (control.extensions.map fun extensions => ⟨extensions.partialMessages⟩)]

namespace GossipsubCodec

variable (codec : GossipsubCodec)

def eventOf (rpc : Proto.Rpc) : HandlerEvent where
  rpc :=
    { messages := rpc.publish.filterMap fun message => (codec.validate identity message).toOption
      subscriptions := rpc.subscriptions.map subscriptionOf
      controlMsgs := controlMsgsOf identity (rpc.control.getD {}) }
  invalidMessages := rpc.publish.filterMap fun message =>
    match codec.validate identity message with
    | .ok _ => none
    | .error invalid => some invalid

/-- The number of published messages and the size of the control part, with one field more. -/
def countField (tag fieldSize : Nat) : Nat × Nat → Except CodecError (Nat × Nat)
  | (publishCount, controlSize) =>
    match tag with
    | 2 =>
      if codec.maxPublishMessages < publishCount + 1 then .error .tooManyPublishMessages
      else .ok (publishCount + 1, controlSize)
    | 1 | 3 =>
      if codec.maxControlMessageSize < controlSize + fieldSize then .error .controlSizeExceeded
      else .ok (publishCount, controlSize + fieldSize)
    | _ => .ok (publishCount, controlSize)

/-- The fuel bounds the number of fields. -/
def validateFields : Nat → Nat × Nat → List UInt8 → Except CodecError Unit
  | 0, _, _ => .ok ()
  | fuel + 1, counts, buf =>
    if buf.isEmpty then .ok ()
    else
      match consumeField.run buf with
      | .error error => .error (.protobuf error)
      | .ok (tag, rest) =>
        match codec.countField tag (buf.length - rest.length) counts with
        | .error error => .error error
        | .ok counts => validateFields fuel counts rest

/-- The length is that of the buffer, with the prefix and with all that is behind the message. -/
def validateRpcLimits [UnsignedVarint] (buf : List UInt8) : Except CodecError Bool :=
  if codec.globalMaxTransmitSize < buf.length then
    .error (.exceedsMaximum buf.length codec.globalMaxTransmitSize)
  else
    match consumeMessagePrefix buf with
    | .error error => .error error
    | .ok none => .ok false
    | .ok (some message) => (fun _ => true) <$> codec.validateFields (message.length + 1) (0, 0) message

def decode [UnsignedVarint] (src : List UInt8) : Except CodecError (Option (HandlerEvent × List UInt8)) :=
  match codec.validateRpcLimits src with
  | .error error => .error error
  | .ok false => .ok none
  | .ok true =>
    match ProstCodec.decode codec.globalMaxTransmitSize Proto.Rpc.decode src with
    | .error error => .error error
    | .ok none => .ok none
    | .ok (some (rpc, rest)) => .ok (some (codec.eventOf identity rpc, rest))

def encode [UnsignedVarint] (rpc : Proto.Rpc) : List UInt8 := frame rpc.encode

end GossipsubCodec

/-- The fields that count as control messages. -/
def Proto.Rpc.controlSize (rpc : Proto.Rpc) : Nat :=
  (rpc.subscriptions.flatMap fun item => encodeBytes 1 item.encode).length +
    (encodeOptional (fun item => encodeBytes 3 item.encode) rpc.control).length

structure GossipsubCodec.Within (codec : GossipsubCodec) (rpc : Proto.Rpc) : Prop where
  size : rpc.encode.length ≤ codec.globalMaxTransmitSize
  publish : rpc.publish.length ≤ codec.maxPublishMessages
  control : rpc.controlSize ≤ codec.maxControlMessageSize

instance (codec : GossipsubCodec) (rpc : Proto.Rpc) : Decidable (codec.Within rpc) :=
  decidable_of_iff (_ ∧ _ ∧ _) ⟨fun h => ⟨h.1, h.2.1, h.2.2⟩, fun h => ⟨h.size, h.publish, h.control⟩⟩

/-- The bytes are fields that the first pass counts. -/
inductive GossipsubCodec.Counts (codec : GossipsubCodec) : Nat × Nat → List UInt8 → Nat × Nat → Prop where
  | nil (counts : Nat × Nat) : Counts codec counts [] counts
  | field {counts next result : Nat × Nat} {tag : Nat} {field bytes : List UInt8}
      (hread : Reads consumeField field tag) (hnonempty : field ≠ [])
      (hcount : codec.countField tag field.length counts = .ok next) (hrest : Counts codec next bytes result) :
      Counts codec counts (field ++ bytes) result

namespace GossipsubCodec

variable {codec : GossipsubCodec} {bytes value : List UInt8}

theorem Counts.trans {counts next result : Nat × Nat} {more : List UInt8}
    (hf : codec.Counts counts bytes next) (hs : codec.Counts next more result) :
    codec.Counts counts (bytes ++ more) result := by
  induction hf with
  | nil => exact hs
  | field hr hn hc _ ih =>
    rw [append_assoc]
    exact .field hr hn hc (ih hs)

theorem Counts.validateFields {counts res : Nat × Nat}
    (hc : codec.Counts counts bytes res) {fuel : Nat} (hf : bytes.length < fuel) :
    codec.validateFields fuel counts bytes = .ok () := by
  induction hc generalizing fuel with
  | nil =>
    obtain ⟨fuel, rfl⟩ : ∃ n, fuel = n + 1 := ⟨fuel - 1, by omega⟩
    rfl
  | @field counts next res tag field bytes hr hn hco _ ih =>
    obtain ⟨fuel, rfl⟩ : ∃ n, fuel = n + 1 := ⟨fuel - 1, by omega⟩
    have hpos := length_pos_of_ne_nil hn
    rw [length_append] at hf
    have he : ¬ (field ++ bytes).isEmpty := by
      rw [List.isEmpty_iff]
      exact fun h => hn (append_eq_nil_iff.1 h).1
    have hs : (field ++ bytes).length - bytes.length = field.length := by
      rw [length_append]
      omega
    rw [GossipsubCodec.validateFields, if_neg he, hr]
    dsimp only
    rw [hs, hco]
    exact ih (by omega)

variable {tag : Nat}

theorem reads_consumeField (ht : IsTag tag) (hfits : Fits (encodeBytes tag value)) :
    Reads consumeField (encodeBytes tag value) tag :=
  Reads.bind (reads_decodeKey .lengthDelimited ht) ((reads_skipField 99 tag hfits.value).map fun _ => tag)

theorem encodeBytes_ne_nil (ht : IsTag tag) : encodeBytes tag value ≠ [] := by
  intro hnil
  have hk : encodeKey tag .lengthDelimited = [] := (append_eq_nil_iff.1 hnil).1
  have hr := reads_decodeKey .lengthDelimited ht
  rw [hk] at hr
  exact not_reads_decodeKey_nil _ hr

theorem Counts.single {counts next : Nat × Nat} (ht : IsTag tag) (hfits : Fits (encodeBytes tag value))
    (hc : codec.countField tag (encodeBytes tag value).length counts = .ok next) :
    codec.Counts counts (encodeBytes tag value) next := by
  have hf := Counts.field (reads_consumeField ht hfits) (encodeBytes_ne_nil ht) hc (.nil next)
  rwa [append_nil] at hf

section

variable {β : Type} {encode : β → List UInt8} {items : List β} {publishCount controlSize : Nat}

/-- The items of a field, with the counts behind each of them. -/
theorem Counts.flatMap (ht : IsTag tag) (counts : List β → Nat × Nat)
    (hfits : Fits (items.flatMap fun item => encodeBytes tag (encode item)))
    (hc : ∀ pre item, pre ++ [item] <+: items →
      codec.countField tag (encodeBytes tag (encode item)).length (counts pre) = .ok (counts (pre ++ [item]))) :
    codec.Counts (counts []) (items.flatMap fun item => encodeBytes tag (encode item)) (counts items) := by
  induction items generalizing counts with
  | nil => exact .nil _
  | cons item items ih =>
    rw [flatMap_cons] at hfits ⊢
    have hr := ih (fun pre => counts (item :: pre)) hfits.right fun pre other hp =>
      hc (item :: pre) other (prefix_cons_inj item |>.2 hp)
    exact (Counts.single ht hfits.left (hc [] item (prefix_append [item] items))).trans hr

variable {value : Option β}

theorem Counts.control (hfits : Fits (encodeOptional (fun item => encodeBytes 3 (encode item)) value))
    (hc : controlSize + (encodeOptional (fun item => encodeBytes 3 (encode item)) value).length ≤
      codec.maxControlMessageSize) :
    codec.Counts (publishCount, controlSize) (encodeOptional (fun item => encodeBytes 3 (encode item)) value)
      (publishCount, controlSize + (encodeOptional (fun item => encodeBytes 3 (encode item)) value).length) := by
  cases value with
  | none => exact .nil _
  | some => exact Counts.single (by decide) hfits (if_neg (by simpa [encodeOptional] using hc))

theorem Counts.partialExtension (counts : Nat × Nat)
    (hfits : Fits (encodeOptional (fun item => encodeBytes 10 (encode item)) value)) :
    codec.Counts counts (encodeOptional (fun item => encodeBytes 10 (encode item)) value) counts := by
  cases value with
  | none => exact .nil _
  | some => exact Counts.single (by decide) hfits rfl

end

variable {rpc : Proto.Rpc}

theorem Within.counts (hwithin : codec.Within rpc) (hfits : Fits rpc.encode) :
    codec.Counts (0, 0) rpc.encode (rpc.publish.length, rpc.controlSize) := by
  have hc := hwithin.control
  unfold Proto.Rpc.controlSize at hc ⊢
  have hsub : codec.Counts (0, 0) (rpc.subscriptions.flatMap fun item => encodeBytes 1 item.encode)
      (0, (rpc.subscriptions.flatMap fun item => encodeBytes 1 item.encode).length) := by
    refine Counts.flatMap (by decide) (fun items => (0, (items.flatMap fun item => encodeBytes 1 item.encode).length))
      hfits.left fun pre item hp => ?_
    obtain ⟨rest, hr⟩ := hp
    rw [← hr, flatMap_append, flatMap_append, flatMap_singleton, length_append, length_append] at hc
    rw [flatMap_append, flatMap_singleton, length_append]
    exact if_neg (by omega)
  have hp (controlSize : Nat) : codec.Counts (0, controlSize)
      (rpc.publish.flatMap fun item => encodeBytes 2 item.encode) (rpc.publish.length, controlSize) := by
    refine Counts.flatMap (by decide) (fun items => (items.length, controlSize)) hfits.right.left fun pre item hp => ?_
    have hl := hp.length_le.trans hwithin.publish
    rw [length_append, length_singleton] at hl ⊢
    exact if_neg (by omega)
  exact hsub.trans ((hp _).trans ((Counts.control hfits.right.right.left hc).trans
    (Counts.partialExtension _ hfits.right.right.right)))

theorem Within.fits (hwithin : codec.Within rpc) : Fits rpc.encode := Nat.lt_of_le_of_lt hwithin.size codec.size_lt

variable [UnsignedVarint]

theorem encode_append (rpc : Proto.Rpc) (more : List UInt8) :
    encode rpc ++ more = encodeUsize rpc.encode.length ++ (rpc.encode ++ more) :=
  append_assoc _ _ _

theorem encode_ne_nil (rpc : Proto.Rpc) : encode rpc ≠ [] := by
  intro hnil
  exact encodeU64_ne_nil _ (append_eq_nil_iff.1 hnil).1

section

variable (hfits : Fits rpc.encode)
include hfits

theorem decodeUsize_encode (more : List UInt8) :
    decodeUsize (encode rpc ++ more) = .ok (rpc.encode.length, rpc.encode ++ more) := by
  rw [encode_append, decodeUsize_encodeUsize hfits]

theorem consumeMessagePrefix_encode (more : List UInt8) :
    consumeMessagePrefix (encode rpc ++ more) = .ok (some rpc.encode) := by
  rw [consumeMessagePrefix, decodeUsize_encode hfits]
  dsimp only
  rw [if_neg (by rw [length_append]; omega), take_left]

theorem consumeMessagePrefix_part {part rest : List UInt8}
    (hs : encode rpc = part ++ rest) (hr : rest ≠ []) : consumeMessagePrefix part = .ok none := by
  unfold consumeMessagePrefix
  rcases decodeU64_arrived hfits hs.symm with ⟨body, rfl, hb⟩ | ⟨hre, -⟩
  · -- the length is there
    have hre : decodeUsize (encodeU64 rpc.encode.length ++ body) = _ := decodeUsize_encodeUsize hfits body
    have hpos := length_pos_of_ne_nil hr
    have hlen := congrArg List.length hb
    rw [length_append] at hlen
    rw [hre]
    dsimp only
    rw [if_pos (by omega)]
  · have hm : decodeUsize part = _ := hre
    rw [hm]

end

section

variable (hwithin : codec.Within rpc) {more : List UInt8}
  (hlim : (encode rpc ++ more).length ≤ codec.globalMaxTransmitSize)
include hwithin hlim

theorem validateRpcLimits_encode : codec.validateRpcLimits (encode rpc ++ more) = .ok true := by
  have hf := (hwithin.counts hwithin.fits).validateFields (Nat.lt_succ_self _)
  rw [validateRpcLimits, if_neg (Nat.not_lt.2 hlim), consumeMessagePrefix_encode hwithin.fits]
  dsimp only
  rw [hf]
  rfl

theorem prostDecode_encode :
    ProstCodec.decode codec.globalMaxTransmitSize Proto.Rpc.decode (encode rpc ++ more) = .ok (some (rpc, more)) := by
  have hs := codec.size_lt
  have hlen : rpc.encode.length + ((encode rpc ++ more).length - (rpc.encode ++ more).length) ≤
      (encode rpc ++ more).length := by
    rw [encode_append]
    simp only [length_append]
    omega
  rw [ProstCodec.decode, decodeUsize_encode hwithin.fits]
  dsimp only
  rw [if_neg (Nat.not_lt.2 hwithin.size), if_neg (by omega), take_left, rpc.decode_encode hwithin.fits, drop_left]

end

theorem limited (codec : GossipsubCodec) : Limited (codec.decode identity) codec.globalMaxTransmitSize
      (fun rpc : { rpc // codec.Within rpc } => encode rpc.1) (fun rpc => codec.eventOf identity rpc.1) where
  empty := by
    have hnil : consumeMessagePrefix [] = .ok none := by rw [consumeMessagePrefix, decodeUsize, decodeU64_nil]
    rw [decode, validateRpcLimits, hnil]
    rfl
  nonempty rpc := encode_ne_nil rpc.1
  whole rpc more hlim := by rw [decode, validateRpcLimits_encode rpc.2 hlim, prostDecode_encode rpc.2 hlim]
  part rpc part rest hs hr hlim := by
    rw [decode, validateRpcLimits, if_neg (Nat.not_lt.2 hlim), consumeMessagePrefix_part rpc.2.fits hs hr]
  tooMuch buffer ho := by
    refine ⟨.exceedsMaximum buffer.length codec.globalMaxTransmitSize, ?_⟩
    rw [decode, validateRpcLimits, if_pos ho]

/-- **Frames of gossipsub.** For calls within the limits, in any pieces, all events come out in order and there
is no error just if no piece meets so much of an unfinished frame that together they are more than a single
message may be. -/
theorem feed_encode_iff (codec : GossipsubCodec) (rpcs : List Proto.Rpc) (chunks : List (List UInt8))
    (hwithin : ∀ rpc ∈ rpcs, codec.Within rpc) (hchunks : chunks.flatten = rpcs.flatMap encode) :
    feed (codec.decode identity) [] chunks = .ok (rpcs.map (codec.eventOf identity), []) ↔
      PiecesFit codec.globalMaxTransmitSize (rpcs.map encode) 0 chunks := by
  have hf : (rpcs.attachWith codec.Within hwithin).map (fun rpc => encode rpc.1) = rpcs.map encode :=
    attachWith_map_val ..
  have he : (rpcs.attachWith codec.Within hwithin).map (fun rpc => codec.eventOf identity rpc.1) =
      rpcs.map (codec.eventOf identity) := attachWith_map_val ..
  rw [← he, ← hf]
  apply (limited identity codec).feed_eq_iff
  · rw [nil_append, hchunks, hf, flatMap_def]
  · cases rpcs.attachWith codec.Within hwithin with
    | nil => rfl
    | cons rpc => exact length_pos_of_ne_nil (encode_ne_nil rpc.1)

end GossipsubCodec
end Codec

namespace GossipsubCodec

def announce : Proto.Rpc := { subscriptions := [{ subscribe := some true, topicId := some "a" }] }

def smallCodec : GossipsubCodec := ⟨8, .strict, fun _ => none, 1, 8, by decide⟩

theorem feed_encode_announce : (∀ rpc ∈ [announce, announce], smallCodec.Within rpc) ∧
      feed (smallCodec.decode (small [])) [] [encode announce, encode announce] =
        .ok ([announce, announce].map (smallCodec.eventOf (small [])), []) :=
  ⟨by decide, (feed_encode_iff (small []) smallCodec [announce, announce]
    [encode announce, encode announce] (by decide) (by decide)).2 (by decide)⟩

/-- The second call is in the buffer before the first was taken, and the two are more than one may be. A call of
the largest size is too much on its own, with its length before it. -/
theorem feed_encode_error : (∀ rpc ∈ [announce, announce], smallCodec.Within rpc) ∧
      feed (smallCodec.decode (small [])) [] [encode announce ++ encode announce] = .error (.exceedsMaximum 16 8) ∧
      { smallCodec with globalMaxTransmitSize := 7, size_lt := by decide : GossipsubCodec }.Within announce ∧
      feed ({ smallCodec with globalMaxTransmitSize := 7, size_lt := by decide : GossipsubCodec }.decode
        (small [])) [] [encode announce] = .error (.exceedsMaximum 8 7) := by
  decide +kernel

end GossipsubCodec
end RustLibp2p.Gossipsub
